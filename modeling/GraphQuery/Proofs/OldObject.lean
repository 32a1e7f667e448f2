import GraphQuery.Proofs.Combination
import GraphQuery.Proofs.MentionBound

/-!
# The variable of the old object

A replacement gives the old object a variable, which is the same in every replacement. A query
mentions a variable as often as the calls executed in it write one, at any depth of sub-queries: in
the places of their arguments, and twice more for the old object of each replacement. So nothing
else in a query shares the variable of the old object unless an argument names it, but all its
replacements do.

Key definitions: `Call.given`, `Call.introduced`, `Builder.Counts`, `Logged`.
Key theorems: `Builder.Counts.run`, `Logged.exists_of_reachable`, `Logged.counts`,
`Builder.count_oldObject`.
-/

namespace GraphQuery

namespace Call

/-- Whether a call replaces an object. -/
def isReplacement : Call → Bool
  | replace _ _ _ _ => true
  | _ => false

/-- The variables that the arguments of a call name, in each place where the call writes them. A
replacement writes its subject and predicate in four edges and its object in two. -/
def given : Call → List String
  | replace subject predicate object _ =>
    let edge := [subject, predicate].flatMap Term.mentions
    edge ++ edge ++ (edge ++ object.mentions) ++ (edge ++ object.mentions)
  | call => call.named

/-- The variables that a call brings in itself: a replacement has its old object in two edges. -/
def introduced : Call → List String
  | replace _ _ _ _ => Builder.oldObject.mentions ++ Builder.oldObject.mentions
  | _ => []

/-- The variables that a call writes. -/
def mentions (call : Call) : List String := call.given ++ call.introduced

/-- No finished query among the arguments of a call mentions a variable. -/
def Silent (v : String) (call : Call) : Prop :=
  ∀ json, .json json ∈ call.subQueries → v ∉ json.mentions

/-- A call that writes one node writes what its arguments name. -/
theorem mentions_of_single {call : Call} (single : call.operation.isComposite = false) :
    call.mentions = call.named := by
  cases call with
  | replace subject predicate object graph => cases graph <;> cases single
  | _ => exact List.append_nil _

end Call

variable {v : String}

/-! ### Sub-queries -/

namespace SubQuery

/-- A sub-query that is stored as a tree of so many mentions and no other is accounted for. -/
theorem accounted_of_tree {q : SubQuery} (stored : ∀ op field t, q.tree op field = .ok t →
    t.uses v = uses v q ∧ t.Exact) : q.Accounted v := by
  intro op field t found
  obtain ⟨same, exact_⟩ := stored op field t found
  refine ⟨same, fun c => ?_⟩
  rw [exact_.uses_combined, same]

theorem accounted_following : following.Accounted v := by
  refine accounted_of_tree fun op field t found => ?_
  cases found
  exact ⟨Tree.uses_empty v, nofun⟩

theorem accounted_truth : truth.Accounted v := by
  refine accounted_of_tree fun op field t found => ?_
  cases found
  have other : ∀ c : Combinator, "True" ≠ c.kind := by rintro (_ | _) <;> decide
  refine ⟨?_, fun c same => absurd (Option.some.inj same) (other c)⟩
  rw [Tree.uses_node]
  rfl

/-- A finished query without the variable brings none, whatever is dropped of it. -/
theorem accounted_json {value : Json} (silent : v ∉ value.mentions) :
    (json value).Accounted v := by
  intro op field t found
  have none : uses v (json value) = 0 := List.count_eq_zero.2 silent
  cases value with
  | obj fields =>
    cases found
    have bound := (Tree.uses_ofFields_le (v := v) fields).trans_eq none
    have combined := fun c => ((Tree.ofFields fields).sum_combined_le c).trans bound
    rw [none]
    exact ⟨Nat.le_zero.1 bound, fun c => Nat.le_zero.1 (combined c)⟩
  | _ => cases found

end SubQuery

/-! ### Calls -/

namespace Builder

/-- The query of a builder mentions a variable so often. -/
def Counts (v : String) (n : ℕ) (b : Builder) : Prop :=
  ∃ k, b.Realizes k ∧ k.Exact ∧ k.tree.uses v = n

theorem counts_blank (vocabulary : Vocabulary) (expandsPaths : Bool) :
    (blank vocabulary expandsPaths).Counts v 0 :=
  ⟨_, realizes_blank _ _, Sketch.exact_blank _ _, Tree.uses_empty v⟩

namespace Counts

variable {b after : Builder} {n : ℕ}

theorem count_raw (h : b.Counts v n) : b.raw.mentions.count v = n := by
  obtain ⟨k, realizes, -, same⟩ := h
  rw [realizes.raw_eq]
  exact same

theorem count_wire_le (h : b.Counts v n) : b.wire.mentions.count v ≤ n := by
  obtain ⟨k, realizes, -, rfl⟩ := h
  rw [wire, realizes.tree_eq]
  exact k.tree.count_wire_le

/-- A query that a builder made is a sub-query of as many mentions. -/
theorem subQuery (h : b.Counts v n) :
    (SubQuery.query b).Accounted v ∧ (SubQuery.query b).uses v = n := by
  obtain ⟨k, realizes, exact_, same⟩ := h
  have uses : (SubQuery.query b).uses v = n := by
    rw [SubQuery.uses, realizes.tree_eq, same]
  refine ⟨SubQuery.accounted_of_tree fun op field t found => ?_, uses⟩
  obtain rfl : b.store.tree b.root = t := Except.ok.inj found
  rw [uses, realizes.tree_eq]
  exact ⟨same, exact_.tree⟩

theorem extendVocabulary (h : b.Counts v n) (names : List (String × String)) :
    (b.extendVocabulary names).Counts v n := by
  obtain ⟨k, realizes, exact_, same⟩ := h
  exact ⟨_, realizes.extendVocabulary names,
    ⟨exact_.frames, exact_.conjunction, exact_.focus, exact_.empty⟩, same⟩

theorem joined {a : Builder} {m : ℕ} (c : Combinator) (h : a.Counts v m) (h₁ : b.Counts v n) :
    (a.joined c b).Counts v (m + n) := by
  obtain ⟨j, realizes, exact_, rfl⟩ := h
  obtain ⟨k, realizes₁, exact₁, rfl⟩ := h₁
  have focus := Tree.exact_combination c ([j.tree, k.tree].flatMap (Tree.combined c))
  refine ⟨_, realizes.joined c realizes₁, ⟨nofun, nofun, focus, nofun⟩, ?_⟩
  have tree : (j.combination c [j.tree, k.tree]).tree = .node (some c.kind)
      [(c.key, .queries ([j.tree, k.tree].flatMap (Tree.combined c)))] := rfl
  rw [tree, Tree.uses_combination, List.flatMap_cons, List.flatMap_singleton, List.map_append,
    List.sum_append, exact_.tree.uses_combined, exact₁.tree.uses_combined]

theorem perform (h : b.Counts v n) {e : Edit} (plain : e.Plain)
    (distinct : (e.fields.map Prod.fst).Nodup) (accounted : ∀ q ∈ e.subQueries, q.Accounted v)
    (ran : b.perform e = .ok after) : after.Counts v (n + e.uses v) := by
  obtain ⟨k, realizes, exact_, rfl⟩ := h
  obtain ⟨k₁, ran₁, realizes₁⟩ := (ran ▸ realizes.perform e).exists_right
  obtain ⟨exact₁, added⟩ := exact_.perform plain distinct accounted ran₁
  exact ⟨k₁, realizes₁, exact₁, added⟩

/-- A call that writes one node adds what its arguments name. -/
theorem run_single (h : b.Counts v n) {call : Call} (single : call.operation.isComposite = false)
    (accounted : ∀ q ∈ call.subQueries, q.Accounted v) (ran : b.run call = .ok after) :
    after.Counts v
      (n + (call.named.count v + (call.subQueries.map (SubQuery.uses v)).sum)) := by
  rw [run_eq_perform] at ran
  obtain ⟨e, found, ran⟩ := bind_eq_ok_iff.1 ran
  obtain ⟨plain, same, -⟩ := edit_plain single found
  obtain ⟨keys, nodup, names⟩ := Call.names_edit single found
  have counts := h.perform plain (nodup.sublist names.keys) (same ▸ accounted) ran
  rwa [Edit.uses, names.named, same] at counts

/-! ### Replacing an object -/

theorem edge (h : b.Counts v n) (kind : EdgeKind) (subject predicate object : Term)
    (graph : Option String) : Yields (b.edge kind subject predicate object graph)
      (Counts v (n + ([subject, predicate, object].flatMap Term.mentions).count v)) := by
  intro after ran
  exact h.run_single (single_edge _ _ _ _ _) nofun ran

theorem about (h : b.Counts v n) (host : Host) {q : SubQuery} (accounted : q.Accounted v) :
    Yields (b.about host q) (Counts v (n + (host.named.count v + q.uses v))) := by
  intro after ran
  have counts := h.run_single (single_about host q) (List.forall_mem_singleton.2 accounted) ran
  rwa [Call.subQueries, List.map_singleton, List.sum_singleton] at counts

/-- What deletes the old object has its variable in two edges of three. -/
theorem removal (h : b.Counts v 0) (subject predicate object : Term) (graph : Option String) :
    Yields (b.removal subject predicate object graph)
      (Counts v (2 * ([subject, predicate, oldObject].flatMap Term.mentions).count v +
        ([subject, predicate, object].flatMap Term.mentions).count v)) := by
  refine .bind fun b₁ ran₁ => .bind fun b₂ ran₂ => .bind fun b₃ ran₃ after ran => ?_
  have h₁ := h.edge .present subject predicate oldObject graph b₁ ran₁
  have h₂ := h₁.edge .delete subject predicate oldObject graph b₂ ran₂
  have h₃ := h₂.about .not SubQuery.accounted_following b₃ ran₃
  have h₄ := h₃.edge .present subject predicate object graph after ran
  have silent : Host.not.named.count v + SubQuery.following.uses v = 0 := rfl
  rwa [silent, Nat.add_zero, Nat.zero_add, ← Nat.two_mul] at h₄

/-- **A call adds to a query what it writes and what its sub-queries mention.** -/
theorem run (h : b.Counts v n) {call : Call} (accounted : ∀ q ∈ call.subQueries, q.Accounted v)
    (ran : b.run call = .ok after) :
    after.Counts v
      (n + (call.mentions.count v + (call.subQueries.map (SubQuery.uses v)).sum)) := by
  rcases single_or_replace call with single | ⟨subject, predicate, object, graph, rfl⟩
  · rw [Call.mentions_of_single single]
    exact h.run_single single accounted ran
  · rw [run_eq_perform] at ran
    obtain ⟨e, found, ran⟩ := bind_eq_ok_iff.1 ran
    obtain ⟨⟨optional, addition⟩, replaced, rfl⟩ := map_eq_ok_iff.1 found
    obtain ⟨removal, ran₁, replaced⟩ := bind_eq_ok_iff.1 replaced
    obtain ⟨_, ran₂, replaced⟩ := bind_eq_ok_iff.1 replaced
    obtain ⟨_, ran₃, built⟩ := bind_eq_ok_iff.1 replaced
    cases built
    have blank := counts_blank (v := v) b.vocabulary b.expandsPaths
    have removes := (blank.removal subject predicate object graph removal ran₁).subQuery
    have first := (blank.about .optional removes.1 optional ran₂).subQuery
    have second := (blank.edge .add subject predicate object graph addition ran₃).subQuery
    have parts : ∀ q ∈ [SubQuery.query optional, .query addition], q.Accounted v :=
      List.forall_mem_cons.2 ⟨first.1, List.forall_mem_singleton.2 second.1⟩
    have counts := h.perform (e := .and [.query optional, .query addition]) trivial
      List.nodup_nil parts ran
    have added : Edit.uses v (.and [.query optional, .query addition]) =
        (Call.replace subject predicate object graph).mentions.count v := by
      have silent : Host.optional.named.count v = 0 := rfl
      simp only [Edit.uses, Edit.fields, Edit.subQueries, List.map_cons, List.map_nil,
        List.sum_cons, List.sum_nil, first.2, second.2, removes.2, silent, Call.mentions,
        Call.given, Call.introduced, List.flatMap_cons, List.flatMap_nil, List.count_append,
        List.count_nil]
      omega
    rw [added] at counts
    exact counts

end Counts

end Builder

/-! ### The calls executed -/

/-- A builder that was made from the empty query, and the calls executed in it. Those of a sub-query
count where it is passed; a finished query has none. -/
inductive Logged : Builder → List Call → Prop
  | ofVocabulary (vocabulary : Vocabulary) : Logged (.ofVocabulary vocabulary) []
  | ofConfig (config : Config) : Logged (.ofConfig config) []
  | cleared {b : Builder} {calls : List Call} : Logged b calls → Logged b.cleared []
  | extendVocabulary {b : Builder} {calls : List Call} (names : List (String × String)) :
    Logged b calls → Logged (b.extendVocabulary names) calls
  | run {b after : Builder} {call : Call} {calls : List Call}
    {inner : List (SubQuery × List Call)} : Logged b calls →
    inner.map Prod.fst = call.subQueries →
    (∀ q log, (.query q, log) ∈ inner → Logged q log) →
    (∀ q log, (q, log) ∈ inner → (∀ b, q ≠ .query b) → log = []) →
    b.run call = .ok after → Logged after (calls ++ call :: inner.flatMap Prod.snd)
  | both {a b : Builder} {calls calls₁ : List Call} : Logged a calls → Logged b calls₁ →
    Logged (a.both b) (calls ++ calls₁)
  | either {a b : Builder} {calls calls₁ : List Call} : Logged a calls → Logged b calls₁ →
    Logged (a.either b) (calls ++ calls₁)

namespace Logged

variable {b : Builder} {calls : List Call}

/-- A call without sub-queries is all that is executed. -/
theorem run_alone {after : Builder} {call : Call} (logged : Logged b calls)
    (alone : call.subQueries = []) (ran : b.run call = .ok after) :
    Logged after (calls ++ [call]) := by
  have same : ([] : List (SubQuery × List Call)).map Prod.fst = call.subQueries := alone.symm
  exact logged.run same nofun nofun ran

/-- Every builder made from empty queries has a log. -/
theorem exists_of_reachable {start : Builder → Prop} (empty : ∀ b, start b → Logged b [])
    (reachable : Reachable start b) : ∃ calls, Logged b calls := by
  induction reachable with
  | start initial => exact ⟨[], empty _ initial⟩
  | cleared _ ih =>
    obtain ⟨calls, logged⟩ := ih
    exact ⟨[], logged.cleared⟩
  | extendVocabulary names _ ih =>
    obtain ⟨calls, logged⟩ := ih
    exact ⟨calls, logged.extendVocabulary names⟩
  | @run b after call _ _ ran ih ihs =>
    obtain ⟨calls, logged⟩ := ih
    have each : ∀ q ∈ call.subQueries, ∃ log : List Call,
        (∀ b, q = .query b → Logged b log) ∧ ((∀ b, q ≠ .query b) → log = []) := by
      intro q mem
      cases q with
      | query b =>
        obtain ⟨log, logged⟩ := ihs b mem
        refine ⟨log, fun b same => ?_, fun other => absurd rfl (other b)⟩
        cases same
        exact logged
      | _ => exact ⟨[], nofun, fun _ => rfl⟩
    choose! log good silent using each
    have same : (call.subQueries.map fun q => (q, log q)).map Prod.fst = call.subQueries := by
      rw [List.map_map]
      exact List.map_id _
    refine ⟨_, logged.run same ?_ ?_ ran⟩
    · intro q log₁ mem
      obtain ⟨q, listed, same⟩ := List.mem_map.1 mem
      cases same
      exact good _ listed _ rfl
    · intro q log₁ mem other
      obtain ⟨q, listed, same⟩ := List.mem_map.1 mem
      cases same
      exact silent _ listed other
  | both _ _ ih ih₁ =>
    obtain ⟨calls, logged⟩ := ih
    obtain ⟨calls₁, logged₁⟩ := ih₁
    exact ⟨_, logged.both logged₁⟩
  | either _ _ ih ih₁ =>
    obtain ⟨calls, logged⟩ := ih
    obtain ⟨calls₁, logged₁⟩ := ih₁
    exact ⟨_, logged.either logged₁⟩

/-- **A query mentions a variable as often as the calls executed in it write it.** -/
theorem counts (logged : Logged b calls) (silent : ∀ call ∈ calls, call.Silent v) :
    b.Counts v ((calls.flatMap Call.mentions).count v) := by
  induction logged with
  | ofVocabulary vocabulary => exact Builder.counts_blank vocabulary true
  | ofConfig config => exact Builder.counts_blank config.vocabulary config.expandsPaths
  | @cleared b _ _ _ => exact Builder.counts_blank b.vocabulary b.expandsPaths
  | extendVocabulary names _ ih => exact (ih silent).extendVocabulary names
  | @run b after call calls inner _ same _ others ran ih ihs =>
    -- What was executed is what came before, the call and what was executed in its sub-queries.
    obtain ⟨before, rest⟩ := List.forall_mem_append.1 silent
    obtain ⟨first, deeper⟩ := List.forall_mem_cons.1 rest
    have each : ∀ part ∈ inner, part.1.Accounted v ∧ part.1.uses v =
        (part.2.flatMap Call.mentions).count v := by
      rintro ⟨q, log⟩ mem
      cases q with
      | query q =>
        have silent : ∀ call ∈ log, call.Silent v := fun call listed =>
          deeper call (List.mem_flatMap.2 ⟨_, mem, listed⟩)
        exact (ihs q log mem silent).subQuery
      | following =>
        obtain rfl := others _ log mem nofun
        exact ⟨SubQuery.accounted_following, rfl⟩
      | truth =>
        obtain rfl := others _ log mem nofun
        exact ⟨SubQuery.accounted_truth, rfl⟩
      | json json =>
        obtain rfl := others _ log mem nofun
        have listed : SubQuery.json json ∈ call.subQueries :=
          same ▸ List.mem_map.2 ⟨_, mem, rfl⟩
        have unnamed := first json listed
        exact ⟨SubQuery.accounted_json unnamed, List.count_eq_zero.2 unnamed⟩
    have accounted : ∀ q ∈ call.subQueries, q.Accounted v := by
      rw [← same]
      exact List.forall_mem_map.2 fun part mem => (each part mem).1
    have inside : (call.subQueries.map (SubQuery.uses v)).sum =
        ((inner.flatMap Prod.snd).flatMap Call.mentions).count v := by
      rw [← same, List.map_map, List.flatMap_assoc, List.count_flatMap]
      exact congrArg List.sum (List.map_congr_left fun part mem => (each part mem).2)
    have counts := (ih before).run accounted ran
    rwa [inside, ← List.count_append, ← List.count_append, ← List.flatMap_cons,
      ← List.flatMap_append] at counts
  | both _ _ ih ih₁ =>
    obtain ⟨first, second⟩ := List.forall_mem_append.1 silent
    rw [List.flatMap_append, List.count_append]
    exact (ih first).joined .and (ih₁ second)
  | either _ _ ih ih₁ =>
    obtain ⟨first, second⟩ := List.forall_mem_append.1 silent
    rw [List.flatMap_append, List.count_append]
    exact (ih first).joined .or (ih₁ second)

end Logged

namespace Builder

theorem mentions_oldObject : oldObject.mentions = ["AnyObject"] := by decide

/-- A replacement brings the variable of the old object twice, and no other call brings any. -/
theorem count_introduced : ∀ calls : List Call, (calls.flatMap Call.introduced).count "AnyObject" =
    2 * calls.countP Call.isReplacement
  | [] => rfl
  | call :: calls => by
    have ih := count_introduced calls
    have first : call.introduced.count "AnyObject" = 2 * if call.isReplacement then 1 else 0 := by
      cases call with
      | replace => rw [Call.introduced, mentions_oldObject]; rfl
      | _ => rfl
    rw [List.flatMap_cons, List.count_append, ih, first, List.countP_cons]
    omega

/-- **The variable of the old object stands in a query twice for each replacement executed in it,
and where the arguments of calls name it.** All replacements share it, at any depth of sub-queries.
What is sent has it no more often. -/
theorem count_oldObject {b : Builder} {calls : List Call} (logged : Logged b calls)
    (silent : ∀ call ∈ calls, call.Silent "AnyObject") :
    b.raw.mentions.count "AnyObject" = 2 * calls.countP Call.isReplacement +
        (calls.flatMap Call.given).count "AnyObject" ∧
      b.wire.mentions.count "AnyObject" ≤ b.raw.mentions.count "AnyObject" := by
  have counts := logged.counts silent
  have split : (calls.flatMap Call.mentions).count "AnyObject" =
      (calls.flatMap Call.given).count "AnyObject" +
        (calls.flatMap Call.introduced).count "AnyObject" := by
    rw [← List.count_append]
    exact (List.flatMap_append_perm calls Call.given Call.introduced).symm.count_eq _
  rw [counts.count_raw]
  exact ⟨by rw [split, count_introduced, Nat.add_comm], counts.count_wire_le⟩

/-- Two replacements, one of them in a sub-query after a finished query. -/
theorem count_oldObject_nested : ∃ b calls, Logged b calls ∧
    (∀ call ∈ calls, call.Silent "AnyObject") ∧ calls.countP Call.isReplacement = 2 ∧
      (calls.flatMap Call.given).count "AnyObject" = 0 ∧
        b.raw.mentions.count "AnyObject" = 4 ∧ b.wire.mentions.count "AnyObject" ≤ 4 := by
  set first : Call := .replace (.str "doc:a") (.str "name") (.str "Bob") none
  set second : Call := .replace (.str "doc:b") (.str "name") (.str "Eve") (some "instance/main")
  set finished : Json := .obj [("@type", .str "True")]
  obtain ⟨q, b₁, b₂, b₃, ran, ran₁, ran₂, ran₃⟩ : ∃ q b₁ b₂ b₃, fresh.run second = .ok q ∧
      fresh.run first = .ok b₁ ∧ b₁.run (.about .not (.json finished)) = .ok b₂ ∧
        b₂.run (.about .optional (.query q)) = .ok b₃ := by
    have succeeds : ((fresh.run second).bind fun q => fresh.runAll
        [first, .about .not (.json finished), .about .optional (.query q)]).toOption.isSome := by
      decide +kernel
    obtain ⟨b, found⟩ := Option.isSome_iff_exists.1 succeeds
    have built := toOption_eq_some_iff.1 found
    obtain ⟨q, ran, built⟩ := bind_eq_ok_iff.1 built
    obtain ⟨b₁, ran₁, built⟩ := bind_eq_ok_iff.1 built
    obtain ⟨b₂, ran₂, built⟩ := bind_eq_ok_iff.1 built
    obtain ⟨b₃, ran₃, -⟩ := bind_eq_ok_iff.1 built
    exact ⟨q, b₁, b₂, b₃, ran, ran₁, ran₂, ran₃⟩
  have start : Logged fresh [] := .ofVocabulary .standard
  have logged : Logged q [second] := start.run_alone rfl ran
  have logged₁ : Logged b₁ [first] := start.run_alone rfl ran₁
  have logged₂ : Logged b₂ [first, .about .not (.json finished)] := by
    have same : [(SubQuery.json finished, ([] : List Call))].map Prod.fst = [.json finished] := rfl
    refine logged₁.run same ?_ ?_ ran₂
    · intro q log mem
      cases List.mem_singleton.1 mem
    · intro q log mem _
      cases List.mem_singleton.1 mem
      rfl
  have logged₃ : Logged b₃ [first, .about .not (.json finished), .about .optional (.query q),
      second] := by
    have same : [(SubQuery.query q, [second])].map Prod.fst = [.query q] := rfl
    refine logged₂.run same ?_ ?_ ran₃
    · intro q log mem
      cases List.mem_singleton.1 mem
      exact logged
    · intro q log mem other
      cases List.mem_singleton.1 mem
      exact absurd rfl (other _)
  have silent : ∀ call ∈ [first, .about .not (.json finished), .about .optional (.query q), second],
      call.Silent "AnyObject" := by
    refine List.forall_mem_cons.2 ⟨nofun, List.forall_mem_cons.2 ⟨?_, List.forall_mem_cons.2
      ⟨?_, List.forall_mem_cons.2 ⟨nofun, nofun⟩⟩⟩⟩
    · intro json mem
      cases List.mem_singleton.1 mem
      decide
    · intro json mem
      cases List.mem_singleton.1 mem
  have counts := count_oldObject logged₃ silent
  have twice : [first, .about .not (.json finished), .about .optional (.query q), second].countP
      Call.isReplacement = 2 := rfl
  have unnamed : ([first, .about .not (.json finished), .about .optional (.query q),
      second].flatMap Call.given).count "AnyObject" = 0 := rfl
  rw [twice, unnamed] at counts
  exact ⟨b₃, _, logged₃, silent, twice, unnamed, counts.1, counts.2.trans_eq counts.1⟩

theorem exists_of_mentions {calls : List Call} {given : List String}
    (same : ((fresh.runAll calls).toOption.map fun b => b.raw.mentions) = some given) :
    ∃ b, fresh.runAll calls = .ok b ∧ b.raw.mentions = given := by
  obtain ⟨b, found, same⟩ := Option.map_eq_some_iff.1 same
  exact ⟨b, toOption_eq_some_iff.1 found, same⟩

/-- The variables of two replacements in a row are one: each has it twice on its own, and both
together four times. -/
theorem oldObject_shared :
    (∃ b, fresh.runAll [.replace (.str "doc:a") (.str "name") (.str "Bob") none] = .ok b ∧
      b.raw.mentions = ["AnyObject", "AnyObject"]) ∧
    (∃ b, fresh.runAll [.replace (.str "doc:b") (.str "name") (.str "Eve") none] = .ok b ∧
      b.raw.mentions = ["AnyObject", "AnyObject"]) ∧
    ∃ b, fresh.runAll [.replace (.str "doc:a") (.str "name") (.str "Bob") none,
        .replace (.str "doc:b") (.str "name") (.str "Eve") none] = .ok b ∧
      b.raw.mentions = ["AnyObject", "AnyObject", "AnyObject", "AnyObject"] :=
  ⟨exists_of_mentions (by decide +kernel), exists_of_mentions (by decide +kernel),
    exists_of_mentions (by decide +kernel)⟩

end Builder

end GraphQuery
