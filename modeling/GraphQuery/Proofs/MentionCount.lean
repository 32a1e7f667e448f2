import Mathlib.Algebra.GroupWithZero.Nat
import GraphQuery.Proofs.Mentions
import GraphQuery.Proofs.Written

/-!
# How often a query mentions a variable

A query mentions a variable as often as its fields and sub-queries do. An edit adds to a query what
it writes and what its sub-queries mention, wherever the focus is: no mention is lost when a node is
wrapped, when queries are taken out of a combination or when a field is written. This rests on
combinations holding nothing but their queries, and on a focus without kind being empty.

Key definitions: `Tree.uses`, `Tree.Exact`, `SubQuery.Accounted`, `Edit.uses`, `Written.Exact`,
`Sketch.Exact`.
Key theorems: `Tree.uses_within`, `Edit.uses_written`, `Sketch.Exact.perform`.
-/

namespace GraphQuery

variable (v : String)

namespace Tree

/-- How often a query mentions a variable. -/
def uses (t : Tree) : ℕ := t.raw.mentions.count v

/-- How often the content of a field mentions it. -/
def usesUnder : String × Branch Tree → ℕ
  | (key, .value json) => (Json.mentionsUnder (key, json)).count v
  | (_, .query q) => q.uses v
  | (_, .queries qs) => (qs.map (uses v)).sum

theorem usesUnder_eq : ∀ field : String × Branch Tree,
    usesUnder v field = (Json.mentionsUnder (field.1, rawBranch field.2)).count v
  | (key, .value json) => rfl
  | (key, .query (.node kind fields)) => rfl
  | (key, .queries qs) => by
    have texts : (qs.map raw).filterMap Json.text? = [] := by
      rw [List.filterMap_map, List.filterMap_eq_nil_iff]
      rintro ⟨kind, fields⟩ -
      rfl
    have none : Json.namedUnder key (.arr (qs.map raw)) = [] := by
      rw [Json.namedUnder, texts, ite_self]
    rw [usesUnder, rawBranch, rawAll_eq_map, Json.mentionsUnder, none, Json.mentions_arr,
      List.nil_append, List.flatMap_map, List.count_flatMap]
    rfl

/-- The kind of a node has no variables. -/
theorem flatMap_mentionsUnder_withKind (kind : Option String) (fields : Dictionary Json) :
    (withKind kind fields).flatMap Json.mentionsUnder = fields.flatMap Json.mentionsUnder := by
  cases kind with
  | none => rfl
  | some kind => exact Json.flatMap_mentionsUnder_insertNew (Json.mentionsUnder_type kind) fields

theorem uses_node (kind : Option String) (fields : Dictionary (Branch Tree)) :
    (node kind fields).uses v = (fields.map (usesUnder v)).sum := by
  have each : (List.count v ∘ fun field : String × Branch Tree =>
      Json.mentionsUnder (field.1, rawBranch field.2)) = usesUnder v :=
    funext fun field => (usesUnder_eq v field).symm
  rw [uses, raw, Json.mentions_obj, flatMap_mentionsUnder_withKind, rawFields_eq_mapValues,
    Dictionary.mapValues, List.flatMap_map, List.count_flatMap, each]

@[simp] theorem uses_empty : empty.uses v = 0 := by
  rw [empty, uses_node]
  rfl

/-- What a field holds adds to the mentions of the others. -/
theorem exists_uses_insert (key : String) : ∀ fields : Dictionary (Branch Tree), ∃ rest : ℕ,
    ∀ branch, ((fields.insert key branch).map (usesUnder v)).sum =
      rest + usesUnder v (key, branch)
  | [] => ⟨0, fun branch => by simp [Dictionary.insert]⟩
  | (other, old) :: fields => by
    by_cases less : key < other
    · refine ⟨(((other, old) :: fields).map (usesUnder v)).sum, fun branch => ?_⟩
      simp only [Dictionary.insert, if_pos less, List.map_cons, List.sum_cons]
      omega
    by_cases same : key = other
    · refine ⟨(fields.map (usesUnder v)).sum, fun branch => ?_⟩
      simp only [Dictionary.insert, if_neg less, if_pos same, List.map_cons, List.sum_cons]
      omega
    · obtain ⟨rest, each⟩ := exists_uses_insert key fields
      refine ⟨usesUnder v (other, old) + rest, fun branch => ?_⟩
      simp only [Dictionary.insert, if_neg less, if_neg same, List.map_cons, List.sum_cons, each]
      omega

/-- A new field adds what it mentions. -/
theorem uses_insert {key : String} (branch : Branch Tree) :
    ∀ {fields : Dictionary (Branch Tree)}, (∀ field ∈ fields, field.1 ≠ key) →
      ((fields.insert key branch).map (usesUnder v)).sum =
        (fields.map (usesUnder v)).sum + usesUnder v (key, branch)
  | [], _ => by simp [Dictionary.insert]
  | (other, old) :: fields, absent => by
    obtain ⟨first, others⟩ := List.forall_mem_cons.1 absent
    have ih := uses_insert branch others
    by_cases less : key < other
    · simp only [Dictionary.insert, if_pos less, List.map_cons, List.sum_cons]
      omega
    · have ne : key ≠ other := fun same => first same.symm
      simp only [Dictionary.insert, if_neg less, if_neg ne, List.map_cons, List.sum_cons, ih]
      omega

/-- The mentions of a query in frames are those of the frames and its own. -/
theorem exists_uses_within : ∀ frames : List (Frame Tree), ∃ rest : ℕ, ∀ t : Tree,
    (t.within frames).uses v = rest + t.uses v
  | [] => ⟨0, fun _ => (Nat.zero_add _).symm⟩
  | frame :: frames => by
    obtain ⟨outer, around⟩ := exists_uses_within frames
    obtain ⟨rest, each⟩ := exists_uses_insert v frame.key frame.fields
    obtain ⟨beside, filled⟩ : ∃ beside : ℕ, ∀ t : Tree,
        usesUnder v (frame.key, frame.gap.fill t) = beside + t.uses v := by
      cases frame.gap with
      | single => exact ⟨0, fun t => (Nat.zero_add _).symm⟩
      | among before after =>
        refine ⟨(before.map (uses v)).sum + (after.map (uses v)).sum, fun t => ?_⟩
        simp only [Gap.fill, usesUnder, List.map_append, List.map_cons, List.sum_append,
          List.sum_cons]
        omega
    refine ⟨outer + rest + beside, fun t => ?_⟩
    have inner : t.within (frame :: frames) =
        (node frame.kind (frame.filled t)).within frames := rfl
    rw [inner, around, uses_node, Frame.filled, each, filled]
    omega

theorem uses_within (frames : List (Frame Tree)) (t : Tree) :
    (t.within frames).uses v = (empty.within frames).uses v + t.uses v := by
  obtain ⟨rest, around⟩ := exists_uses_within v frames
  rw [around, around, uses_empty, Nat.add_zero]

/-! ### Combinations -/

/-- A combination has nothing but its queries. -/
def Exact (t : Tree) : Prop :=
  ∀ c : Combinator, t.kind = some c.kind → ∃ ts, t.fields = [(c.key, .queries ts)]

theorem exact_combination (c : Combinator) (ts : List Tree) :
    (node (some c.kind) [(c.key, .queries ts)]).Exact := by
  intro c₁ same
  obtain rfl : c = c₁ := combinator_kind_inj (Option.some.inj same)
  exact ⟨ts, rfl⟩

theorem uses_combination (c : Combinator) (ts : List Tree) :
    (node (some c.kind) [(c.key, .queries ts)]).uses v = (ts.map (uses v)).sum := by
  rw [uses_node]
  simp [usesUnder]

/-- The queries that a query is a combination of mention what it mentions. -/
theorem Exact.uses_combined {t : Tree} (exact_ : t.Exact) (c : Combinator) :
    ((t.combined c).map (uses v)).sum = t.uses v := by
  by_cases kind : t.kind = some c.kind
  · obtain ⟨ts, fields⟩ := exact_ c kind
    have parts : t.combined c = ts := by
      rw [combined, if_pos kind, children, fields, Branch.children, Dictionary.find?, if_pos rfl]
    obtain ⟨_, _⟩ := t
    obtain rfl : _ = some c.kind := kind
    obtain rfl : _ = [(c.key, Branch.queries ts)] := fields
    rw [parts, uses_combination]
  · rw [combined, if_neg kind, List.map_singleton, List.sum_singleton]

/-- The conjunction that a query is the beginning of. -/
theorem Exact.conjoined {t : Tree} (exact_ : t.Exact) : ∃ ts,
    t.conjoined = .node (some "And") [("and", .queries ts)] ∧ t.conjoined.uses v = t.uses v := by
  unfold Tree.conjoined
  by_cases conjunction : t.kind = some "And"
  · obtain ⟨ts, only⟩ := exact_ .and conjunction
    rw [if_pos conjunction]
    refine ⟨ts, ?_, rfl⟩
    obtain ⟨_, _⟩ := t
    obtain rfl : _ = some "And" := conjunction
    obtain rfl : _ = [("and", Branch.queries ts)] := only
    rfl
  · rw [if_neg conjunction]
    have alone := uses_combination v .and [t]
    rw [List.map_singleton, List.sum_singleton] at alone
    exact ⟨[t], rfl, alone⟩

end Tree

/-! ### What edits write -/

namespace SubQuery

/-- How often a sub-query mentions a variable. -/
def uses : SubQuery → ℕ
  | query b => (b.store.tree b.root).uses v
  | json value => value.mentions.count v
  | _ => 0

/-- The tree of a sub-query mentions the variable as often as the sub-query does, also when it is
taken apart. -/
def Accounted (q : SubQuery) : Prop :=
  ∀ op field t, q.tree op field = .ok t →
    t.uses v = uses v q ∧ ∀ c, ((t.combined c).map (Tree.uses v)).sum = uses v q

end SubQuery

/-- How often an edit mentions a variable: in the fields that it writes and in its sub-queries. -/
def Edit.uses (e : Edit) : ℕ :=
  (e.fields.flatMap Json.mentionsUnder).count v + (e.subQueries.map (SubQuery.uses v)).sum

variable {v : String}

/-- Adding sub-queries to a combination adds their mentions. -/
theorem Tree.uses_pushAll (c : Combinator) : ∀ {qs : List SubQuery} {ts : List Tree} {after : Tree}
    {gap gap₁ : Option (Gap Tree)},
    pushAll c (.node (some c.kind) [(c.key, .queries ts)]) gap qs = .ok (after, gap₁) →
      (∀ q ∈ qs, q.Accounted v) → ∃ us, after = .node (some c.kind) [(c.key, .queries us)] ∧
        (us.map (uses v)).sum = (ts.map (uses v)).sum + (qs.map (SubQuery.uses v)).sum
  | [], ts, _, _, _, ran, _ => by
    cases ran
    exact ⟨ts, rfl, rfl⟩
  | q :: qs, ts, after, gap, gap₁, ran, accounted => by
    obtain ⟨first, others⟩ := List.forall_mem_cons.1 accounted
    rw [pushAll] at ran
    obtain ⟨given, found, ran⟩ := bind_eq_ok_iff.1 ran
    rw [append_combination] at ran
    obtain ⟨us, same, added⟩ := uses_pushAll c ran others
    refine ⟨us, same, ?_⟩
    rw [added, List.map_append, List.sum_append, (first _ _ _ found).2 c, List.map_cons,
      List.sum_cons, Nat.add_assoc]

/-- Plain fields of different names add their mentions. -/
theorem Tree.uses_withValues : ∀ {given : List (String × Json)} {fields : Dictionary (Branch Tree)},
    (given.map Prod.fst).Nodup → (∀ field ∈ fields, ∀ source ∈ given, field.1 ≠ source.1) →
      ((Branch.withValues given fields).map (usesUnder v)).sum =
        (fields.map (usesUnder v)).sum + (given.flatMap Json.mentionsUnder).count v
  | [], _, _, _ => rfl
  | (key, json) :: given, fields, distinct, apart => by
    obtain ⟨first, others⟩ := List.nodup_cons.1 distinct
    have absent : ∀ field ∈ fields, field.1 ≠ key := fun field mem =>
      apart field mem (key, json) List.mem_cons_self
    have later : ∀ field ∈ fields.insert key (.value json), ∀ source ∈ given,
        field.1 ≠ source.1 := by
      intro field mem source listed
      rcases Dictionary.mem_insert mem with rfl | mem
      · rintro rfl
        exact first (List.mem_map.2 ⟨source, listed, rfl⟩)
      · exact apart field mem source (List.mem_cons_of_mem _ listed)
    rw [Branch.withValues_cons, uses_withValues others later, uses_insert v _ absent,
      List.flatMap_cons, List.count_append]
    simp only [usesUnder]
    omega

/-- A node that is written in an empty place mentions what its fields mention. -/
theorem Tree.uses_write (kind : String) {fields : List (String × Json)}
    (distinct : (fields.map Prod.fst).Nodup) :
    (empty.write kind fields).uses v = (fields.flatMap Json.mentionsUnder).count v := by
  have apart : ∀ field ∈ ([] : Dictionary (Branch Tree)), ∀ source ∈ fields,
      field.1 ≠ source.1 := List.forall_mem_nil _
  have written := uses_withValues (v := v) distinct apart
  rw [write, uses_node, show empty.fields = [] from rfl, written]
  exact Nat.zero_add _

/-- A query in a new field adds its mentions. -/
theorem Tree.uses_set {key : String} {t u : Tree} (absent : ∀ field ∈ t.fields, field.1 ≠ key) :
    (t.set key (.query u)).uses v = t.uses v + u.uses v := by
  obtain ⟨kind, fields⟩ := t
  rw [set, uses_node, uses_node]
  exact uses_insert v _ absent

namespace Edit

/-- What is written mentions a variable as often as the edit. -/
theorem uses_written {e : Edit} {w : Written} (plain : e.Plain)
    (distinct : (e.fields.map Prod.fst).Nodup) (accounted : ∀ q ∈ e.subQueries, q.Accounted v)
    (wrote : e.written = .ok w) : w.tree.uses v = e.uses v := by
  have combination : ∀ (c : Combinator) (qs : List SubQuery), (∀ q ∈ qs, q.Accounted v) →
      writtenCombination c qs = .ok w → w.tree.uses v = (qs.map (SubQuery.uses v)).sum := by
    intro c qs accounted wrote
    obtain ⟨⟨t, gap⟩, pushed, built⟩ := bind_eq_ok_iff.1 wrote
    cases built
    obtain ⟨us, rfl, added⟩ := Tree.uses_pushAll c pushed accounted
    rw [Tree.uses_combination, added, List.map_nil, List.sum_nil, Nat.zero_add]
  cases e with
  | write op fields =>
    cases wrote
    exact Tree.uses_write op.kind distinct
  | host op fields q =>
    obtain ⟨t, found, built⟩ := bind_eq_ok_iff.1 wrote
    cases built
    have absent : ∀ field ∈ (Tree.empty.write op.kind fields).fields, field.1 ≠ "query" := by
      intro field mem
      rcases Branch.mem_withValues fields mem with old | ⟨source, listed, rfl⟩
      · cases old
      · have key := plain.2 source listed
        simp [PlainKey] at key
        exact key.2.1
    have distinct : (fields.map Prod.fst).Nodup := distinct
    rw [Tree.uses_set absent, Tree.uses_write op.kind distinct,
      (accounted q (List.mem_singleton_self q) _ _ _ found).1, uses, subQueries, List.map_singleton,
      List.sum_singleton]
    rfl
  | when condition consequent =>
    obtain ⟨query, next, found, found₁, rfl⟩ := exists_of_written_when wrote
    have bare : (Tree.empty.write Operation.when.kind []).uses v = 0 :=
      Tree.uses_write _ List.nodup_nil
    have absent : ∀ field ∈ ((Tree.empty.write Operation.when.kind []).set "query"
        (.query query)).fields, field.1 ≠ "consequent" := by
      intro field mem
      obtain rfl : field = ("query", .query query) := List.mem_singleton.1 mem
      have other : "query" ≠ "consequent" := by decide
      exact other
    have fresh : ∀ field ∈ (Tree.empty.write Operation.when.kind []).fields, field.1 ≠ "query" :=
      List.forall_mem_nil _
    have first := (accounted condition (by simp [subQueries]) _ _ _ found).1
    have second := (accounted consequent (by simp [subQueries]) _ _ _ found₁).1
    rw [Tree.uses_set absent, Tree.uses_set fresh, bare, first, second, uses, subQueries, fields]
    simp
  | and qs =>
    rw [combination .and qs accounted wrote, uses, subQueries, fields]
    simp
  | or qs =>
    rw [combination .or qs accounted wrote, uses, subQueries, fields]
    simp

end Edit

/-- A query that is written is exact, also with something in the place where the operations that
follow go on, and that place is an empty one in it. -/
structure Written.Exact (w : Written) : Prop where
  tree : w.tree.Exact
  taken : w.tree.kind ≠ none
  refill : ∀ key gap, w.next = some (key, gap) → w.tree.set key (gap.fill .empty) = w.tree
  inside : ∀ key gap, w.next = some (key, gap) → ∀ t, (w.tree.set key (gap.fill t)).Exact

/-- A combination that queries are pushed to stays exact. -/
theorem Tree.exact_pushAll (c : Combinator) {qs : List SubQuery} {ts : List Tree} {t : Tree}
    {gap : Option (Gap Tree)}
    (pushed : pushAll c (.node (some c.kind) [(c.key, .queries ts)]) none qs = .ok (t, gap))
    (accounted : ∀ q ∈ qs, q.Accounted v) :
    Written.Exact ⟨t, gap.map fun gap => (c.key, gap)⟩ := by
  obtain ⟨us, rfl, -⟩ := uses_pushAll c pushed accounted
  have place : ∀ key g, (gap.map fun gap => (c.key, gap)) = some (key, g) →
      key = c.key ∧ ∃ before rest, g = .among before rest ∧
        set key (g.fill .empty) (.node (some c.kind) [(c.key, .queries us)]) =
          .node (some c.kind) [(c.key, .queries us)] := by
    intro key g next
    obtain ⟨g, found, same⟩ := Option.map_eq_some_iff.1 next
    cases same
    obtain ⟨before, rest, among, -, refill⟩ := refill_of_pushAll c pushed nofun g found
    exact ⟨rfl, before, rest, among, refill⟩
  refine ⟨exact_combination c us, Option.some_ne_none _, fun key g next => ?_,
    fun key g next u => ?_⟩
  · obtain ⟨-, -, -, -, refill⟩ := place key g next
    exact refill
  · obtain ⟨rfl, before, rest, rfl, -⟩ := place key g next
    rw [Gap.fill, set_combination]
    exact exact_combination c _

/-- What an edit writes is exact. -/
theorem Edit.exact_written {e : Edit} {w : Written} (plain : e.Plain)
    (accounted : ∀ q ∈ e.subQueries, q.Accounted v) (wrote : e.written = .ok w) : w.Exact := by
  have other : ∀ {op : Operation}, (∀ c : Combinator, op.kind ≠ c.kind) → ∀ {t : Tree},
      t.kind = some op.kind → t.Exact := by
    intro op other t kind c same
    exact absurd (Option.some.inj (kind.symm.trans same)) (other c)
  have single : ∀ {op : Operation}, (∀ c : Combinator, op.kind ≠ c.kind) →
      w.tree.kind = some op.kind → w.Exact := fun simple kind =>
    ⟨other simple kind, (kind_written plain wrote).1, fun _ _ => open_written wrote,
      fun _ _ _ _ => other simple kind⟩
  have combination : ∀ (c : Combinator) (qs : List SubQuery), (∀ q ∈ qs, q.Accounted v) →
      writtenCombination c qs = .ok w → w.Exact := by
    intro c qs accounted wrote
    obtain ⟨⟨t, gap⟩, pushed, built⟩ := bind_eq_ok_iff.1 wrote
    cases built
    exact Tree.exact_pushAll c pushed accounted
  cases e with
  | write op fields =>
    refine single plain.1 ?_
    cases wrote
    rfl
  | host op fields q =>
    refine single plain.1 ?_
    obtain ⟨t, -, built⟩ := bind_eq_ok_iff.1 wrote
    cases built
    rfl
  | when condition consequent =>
    have simple : ∀ c : Combinator, Operation.when.kind ≠ c.kind := by
      rintro (_ | _) <;> decide
    refine single simple ?_
    obtain ⟨query, last, -, -, rfl⟩ := exists_of_written_when wrote
    rfl
  | and qs => exact combination .and qs accounted wrote
  | or qs => exact combination .or qs accounted wrote

namespace Sketch

/-- Combinations around the focus have nothing but their queries, and a focus without kind is
empty. -/
structure Exact (k : Sketch) : Prop where
  frames : ∀ frame ∈ k.frames, ∀ t, (Tree.node frame.kind (frame.filled t)).Exact
  conjunction : ∀ fields, k.conjunction = some fields → ∃ ts, fields = [("and", .queries ts)]
  focus : k.focus.Exact
  empty : k.focus.kind = none → k.focus = .empty

variable {k after : Sketch}

theorem exact_blank (vocabulary : Vocabulary) (expandsPaths : Bool) :
    (blank vocabulary expandsPaths).Exact :=
  ⟨nofun, nofun, nofun, fun _ => rfl⟩

namespace Exact

theorem path (h : k.Exact) :
    ∀ frame ∈ k.path, ∀ t, (Tree.node frame.kind (frame.filled t)).Exact := by
  unfold Sketch.path
  cases open_ : k.conjunction with
  | none => exact h.frames
  | some fields =>
    obtain ⟨ts, rfl⟩ := h.conjunction fields open_
    refine List.forall_mem_cons.2 ⟨fun t => ?_, h.frames⟩
    rw [Frame.filled_conjunction]
    exact Tree.exact_combination .and (ts ++ [t])

/-- The whole query is exact. -/
theorem tree (h : k.Exact) : k.tree.Exact := by
  have within : ∀ (frames : List (Frame Tree)) (t : Tree), t.Exact →
      (∀ frame ∈ frames, ∀ t, (Tree.node frame.kind (frame.filled t)).Exact) →
        (t.within frames).Exact := by
    intro frames
    induction frames with
    | nil => exact fun _ exact_ _ => exact_
    | cons frame frames ih =>
      intro t _ each
      obtain ⟨first, others⟩ := List.forall_mem_cons.1 each
      exact ih _ (first t) others
  exact within k.path k.focus h.focus h.path

/-- The conjunction that the next query is added to has the mentions of the query so far. -/
theorem openConjunction (h : k.Exact) : ∃ ts,
    k.openConjunction = .node (some "And") [("and", .queries ts)] ∧
      (k.openConjunction.within k.frames).uses v = k.tree.uses v := by
  unfold Sketch.openConjunction Sketch.tree Sketch.path
  cases open_ : k.conjunction with
  | none =>
    obtain ⟨ts, conjoined, same⟩ := h.focus.conjoined v
    refine ⟨ts, conjoined, ?_⟩
    simp only [Tree.uses_within v k.frames k.focus, Tree.uses_within v k.frames k.focus.conjoined,
      same]
  | some fields =>
    obtain ⟨ts, rfl⟩ := h.conjunction fields open_
    refine ⟨ts ++ [k.focus], ?_, rfl⟩
    show Tree.node (some "And") ((Frame.conjunction [("and", .queries ts)]).filled k.focus) = _
    rw [Frame.filled_conjunction]

/-- There is an empty place for the next query. -/
theorem free (h : k.Exact) : k.free.Exact ∧ k.free.focus = .empty ∧
    (Tree.empty.within k.free.path).uses v = k.tree.uses v := by
  unfold Sketch.free
  by_cases taken : k.focus.kind.isSome
  · obtain ⟨ts, opened, same⟩ := h.openConjunction (v := v)
    rw [if_pos taken]
    refine ⟨⟨h.frames, ?_, nofun, fun _ => rfl⟩, rfl, ?_⟩
    · intro fields found
      have found : some k.openConjunction.fields = some fields := found
      rw [opened] at found
      exact ⟨ts, (Option.some.inj found).symm⟩
    · have tree : Tree.empty.within k.conjoin.path =
          (Tree.node (some "And") [("and", .queries (ts ++ [.empty]))]).within k.frames := by
        rw [← Frame.filled_conjunction]
        simp only [Sketch.path, Sketch.conjoin, opened]
        rfl
      have grown := Tree.uses_combination v .and (ts ++ [.empty])
      have before := Tree.uses_combination v .and ts
      rw [List.map_append, List.sum_append, List.map_singleton, List.sum_singleton,
        Tree.uses_empty, Nat.add_zero, ← before] at grown
      have grown : Tree.uses v (.node (some "And") [("and", .queries (ts ++ [.empty]))]) = _ :=
        grown
      rw [tree, Tree.uses_within, grown, ← same, opened, Tree.uses_within v k.frames (.node _ _)]
      rfl
  · have empty : k.focus = .empty := h.empty (by simpa using taken)
    rw [if_neg taken]
    refine ⟨h, empty, ?_⟩
    rw [Sketch.tree, empty]

/-- What is put at the focus may be gone on with, and brings its mentions. -/
theorem put (h : k.Exact) {w : Written} (written : w.Exact) : (k.put w).Exact ∧
    (k.put w).tree.uses v = (Tree.empty.within k.path).uses v + w.tree.uses v := by
  refine ⟨?_, by rw [tree_put written.refill, Tree.uses_within]⟩
  unfold Sketch.put
  cases next : w.next with
  | none =>
    exact ⟨h.frames, h.conjunction, written.tree, fun none => absurd none written.taken⟩
  | some place =>
    obtain ⟨key, gap⟩ := place
    refine ⟨List.forall_mem_cons.2 ⟨written.inside key gap next, ?_⟩, nofun, nofun, fun _ => rfl⟩
    exact h.path

/-- The conjunction that `and` goes on from has the mentions of the focus. -/
theorem beginAnd (h : k.Exact) : k.beginAnd.Exact ∧ ∃ ts,
    k.beginAnd.focus = .node (some "And") [("and", .queries ts)] ∧
      k.beginAnd.focus.uses v = k.focus.uses v := by
  obtain ⟨ts, same, uses⟩ : ∃ ts, k.beginAnd.focus = .node (some "And") [("and", .queries ts)] ∧
      k.beginAnd.focus.uses v = k.focus.uses v := by
    unfold Sketch.beginAnd
    by_cases taken : k.focus.kind.isSome
    · simp only [if_pos taken]
      exact h.focus.conjoined v
    · have empty : k.focus = .empty := h.empty (by simpa using taken)
      simp only [if_neg taken]
      refine ⟨[], rfl, ?_⟩
      rw [empty]
      exact Tree.uses_combination v .and []
  refine ⟨⟨h.path, nofun, ?_, fun free => ?_⟩, ts, same, uses⟩
  · rw [same]
    exact Tree.exact_combination .and ts
  · rw [same] at free
    cases free

theorem and (h : k.Exact) {qs : List SubQuery} (accounted : ∀ q ∈ qs, q.Accounted v)
    (ran : k.and qs = .ok after) : after.Exact ∧
      after.tree.uses v = k.tree.uses v + (qs.map (SubQuery.uses v)).sum := by
  obtain ⟨begun, ts, focus, same⟩ := h.beginAnd (v := v)
  obtain ⟨⟨t, gap⟩, pushed, built⟩ := bind_eq_ok_iff.1 ran
  have pushed : Tree.pushAll .and (.node (some "And") [("and", .queries ts)]) none qs =
      .ok (t, gap) := focus ▸ pushed
  have written := Tree.exact_pushAll .and pushed accounted
  obtain ⟨us, rfl, added⟩ := Tree.uses_pushAll .and pushed accounted
  have placed : after = k.beginAnd.put ⟨.node (some Combinator.and.kind)
      [(Combinator.and.key, .queries us)], gap.map fun gap => (Combinator.and.key, gap)⟩ := by
    cases gap <;> exact (Except.ok.inj built).symm
  obtain ⟨exact_, grown⟩ := begun.put (v := v) written
  have path : k.beginAnd.path = k.path := rfl
  have first := Tree.uses_combination v .and ts
  have before : Tree.uses v (.node (some Combinator.and.kind)
      [(Combinator.and.key, .queries ts)]) = k.focus.uses v := focus ▸ same
  refine placed ▸ ⟨exact_, ?_⟩
  rw [grown, Tree.uses_combination, added, ← first, before, path, Sketch.tree,
    Tree.uses_within v k.path k.focus, Nat.add_assoc]

/-- **An edit adds its mentions to those of the query.** -/
theorem perform (h : k.Exact) {e : Edit} (plain : e.Plain)
    (distinct : (e.fields.map Prod.fst).Nodup) (accounted : ∀ q ∈ e.subQueries, q.Accounted v)
    (ran : k.perform e = .ok after) :
    after.Exact ∧ after.tree.uses v = k.tree.uses v + e.uses v := by
  by_cases conjunction : e.isConjunction
  · cases e with
    | and qs =>
      have added := h.and accounted ran
      have silent : ([] : List (String × Json)).flatMap Json.mentionsUnder = [] := rfl
      rwa [Edit.uses, Edit.fields, silent, List.count_nil, Nat.zero_add]
    | _ => cases conjunction
  · have other : e.isConjunction = false := by simpa using conjunction
    obtain ⟨free, empty, same⟩ := h.free (v := v)
    rw [perform_eq_put other empty] at ran
    obtain ⟨w, wrote, rfl⟩ := map_eq_ok_iff.1 ran
    obtain ⟨exact_, grown⟩ := free.put (v := v) (Edit.exact_written plain accounted wrote)
    rw [grown, same, Edit.uses_written plain distinct accounted wrote]
    exact ⟨exact_, rfl⟩

end Exact

end Sketch

end GraphQuery
