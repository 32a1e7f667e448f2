import GraphQuery.Proofs.FieldTable
import GraphQuery.Proofs.Rereading

/-!
# Queries inside other queries

What an operation about a query sends is made of its own fields and of what the query sends on its
own, and of nothing else of the query. So the query may be given as a builder, in its raw form or in
its wire form. An operation about a query that sends nothing sends nothing either, but for a
comment.

Key definitions: `Builder.forms`, `Host.sent`, `sentWhen`.
Key theorems: `Builder.exists_tree_of_form`, `Tree.wire?_about`, `Tree.wire?_when`,
`Builder.about_wire`.
-/

namespace GraphQuery

/-! ### Fields as they are sent -/

namespace Tree

/-- Plain fields are sent as they are. -/
theorem filterMap_settleField_plain : ∀ entries : Dictionary Json,
    (Dictionary.mapValues Branch.value entries).filterMap settleField = entries
  | [] => rfl
  | (key, json) :: rest => congrArg ((key, json) :: ·) (filterMap_settleField_plain rest)

/-- A query among plain fields is sent under its name. -/
theorem filterMap_settleField_query (key : String) (json : Json) : ∀ entries : Dictionary Json,
    (Dictionary.insert key (.query (some json))
      (Dictionary.mapValues Branch.value entries)).filterMap settleField =
        entries.insert key json
  | [] => rfl
  | (name, value) :: rest => by
    have plain : (Dictionary.mapValues Branch.value rest).filterMap settleField = rest :=
      filterMap_settleField_plain rest
    have ih := filterMap_settleField_query key json rest
    unfold Dictionary.mapValues at plain ih ⊢
    by_cases less : key < name
    · simp [Dictionary.insert, less, settleField, plain]
    · by_cases same : key = name
      · simp [same, settleField, plain]
      · simp [Dictionary.insert, less, same, settleField, ih]

/-- A query that sends nothing is left out. -/
theorem filterMap_settleField_none {key : String} : ∀ {entries : Dictionary Json},
    (∀ entry ∈ entries, entry.1 ≠ key) →
      (Dictionary.insert key (.query none)
        (Dictionary.mapValues Branch.value entries)).filterMap settleField = entries
  | [], _ => rfl
  | (name, value) :: rest, absent => by
    have ⟨other, absent⟩ := List.forall_mem_cons.1 absent
    have same : ¬ key = name := fun same => other same.symm
    have ih := filterMap_settleField_none absent
    unfold Dictionary.mapValues at ih ⊢
    by_cases less : key < name
    · rw [List.map_cons, Dictionary.insert, if_pos less, List.filterMap_cons_none rfl]
      exact filterMap_settleField_plain ((name, value) :: rest)
    · simp [Dictionary.insert, less, same, settleField, ih]

/-! ### What a host sends -/

variable {kind : String} {fields : List (String × Json)} {t : Tree}

/-- The plain fields of a node are sent as a dictionary of them. -/
theorem wireFields_withValues (fields : List (String × Json)) :
    wireFields (Branch.withValues fields []) =
      Dictionary.mapValues Branch.value (Dictionary.ofList fields) := by
  have each : wireBranch = Branch.map wire? := funext wireBranch_eq_map
  rw [wireFields_eq_mapValues, each, Branch.mapValues_withValues]
  exact Branch.withValues_mapValues fields []

/-- What a node about a query sends depends on what the query sends, and on nothing else of it. -/
theorem wire?_set_query : ((Tree.empty.write kind fields).set "query" (.query t)).wire? =
    settle (some kind) (Dictionary.insert "query" (.query t.wire?)
      (Dictionary.mapValues Branch.value (Dictionary.ofList fields))) := by
  show settle (some kind)
    (wireFields (Dictionary.insert "query" (.query t) (Branch.withValues fields []))) = _
  rw [wireFields_eq_mapValues, Dictionary.mapValues_insert, ← wireFields_eq_mapValues,
    wireFields_withValues]
  rfl

/-- Fields with a query and a kind, as an object. -/
theorem object_concat (fields : List (String × Json)) (name : String) (json : Json) :
    Json.object (fields ++ [(name, json)]) =
      .obj ((Dictionary.ofList fields).insert name json) := by
  rw [Json.object, Dictionary.ofList, Dictionary.insertAll, List.foldl_append]
  rfl

/-- Plain fields have neither the name of a query nor that of the kind. -/
theorem ne_of_plain (plain : PlainFields fields) : ∀ entry ∈ Dictionary.ofList fields,
    entry.1 ≠ "query" ∧ entry.1 ≠ "@type" := by
  intro entry mem
  have given : entry ∈ fields := (Dictionary.mem_insertAll _ mem).resolve_right List.not_mem_nil
  have key := plain entry given
  constructor <;> rintro same <;> rw [same] at key <;> exact absurd key (by decide)

/-- The wire form of a node that is no combination and not bare. -/
theorem settle_eq_some (other : ∀ c : Combinator, kind ≠ c.kind)
    {entries : Dictionary (Branch (Option Json))} {sent : Dictionary Json}
    (whole : isBare (some kind) entries = false) (settled : entries.filterMap settleField = sent)
    (noType : ∀ field ∈ sent, field.1 ≠ "@type") :
    settle (some kind) entries = some (.obj (sent.insert "@type" (.str kind))) := by
  have notCombined : ∀ c : Combinator, some kind ≠ some c.kind := fun c same =>
    other c (Option.some.inj same)
  have typed : withKind (some kind) (entries.filterMap settleField) =
      sent.insert "@type" (.str kind) := by
    rw [settled, withKind_eq_insert noType]
  refine (settle_eq_some_iff notCombined).2 ⟨whole, fun none => ?_, congrArg Json.obj typed.symm⟩
  have found := Dictionary.find?_insert_self "@type" (Json.str kind) sent
  rw [← typed, none] at found
  cases found

/-- A node with plain fields only is sent with them. -/
theorem wire?_write (other : ∀ c : Combinator, kind ≠ c.kind) (plain : PlainFields fields) :
    (Tree.empty.write kind fields).wire? = some (.object (fields ++ [("@type", .str kind)])) := by
  have whole : ∀ entry ∈ Dictionary.mapValues Branch.value (Dictionary.ofList fields),
      entry.2 ≠ .query (none : Option Json) := by
    intro entry mem
    obtain ⟨field, -, rfl⟩ := List.mem_map.1 mem
    exact nofun
  have settled := filterMap_settleField_plain (Dictionary.ofList fields)
  show settle (some kind) (wireFields (Branch.withValues fields [])) = _
  rw [wireFields_withValues, object_concat]
  exact settle_eq_some other (isBare_eq_false _ whole) settled fun entry mem =>
    (ne_of_plain plain entry mem).2

/-- What is written under a name in an object is found there, if the name is given once. -/
theorem get?_object_of_mem (nodup : (fields.map Prod.fst).Nodup) {key : String} {json : Json}
    (mem : (key, json) ∈ fields) : (Json.object fields).get? key = some json := by
  have found := Branch.find?_withValues_of_mem nodup mem ([] : Dictionary (Branch Tree))
  have plain : Branch.withValues fields ([] : Dictionary (Branch Tree)) =
      Dictionary.mapValues .value (Dictionary.ofList fields) :=
    Branch.withValues_mapValues fields []
  rw [plain, Dictionary.find?_mapValues] at found
  obtain ⟨_, found, same⟩ := Option.map_eq_some_iff.1 found
  cases same
  exact found

/-- A field of a node with plain fields only stands in what is sent. -/
theorem get?_wire_write (other : ∀ c : Combinator, kind ≠ c.kind) (plain : PlainFields fields)
    (nodup : (fields.map Prod.fst).Nodup) {key : String} {json : Json}
    (mem : (key, json) ∈ fields) : (Tree.empty.write kind fields).wire.get? key = some json := by
  rw [wire_of_some (wire?_write other plain)]
  refine get?_object_of_mem ?_ (List.mem_append_left _ mem)
  have noType : ∀ field ∈ fields, field.1 ≠ "@type" := fun field mem same =>
    plain field mem (same ▸ List.mem_cons_self)
  rw [List.map_append, List.nodup_append]
  exact ⟨nodup, List.nodup_singleton _, by simpa using noType⟩

/-- A node with its query is sent with what the query sends. -/
theorem wire?_about (other : ∀ c : Combinator, kind ≠ c.kind) (plain : PlainFields fields)
    {json : Json} (sent : t.wire? = some json) :
    ((Tree.empty.write kind fields).set "query" (.query t)).wire? =
      some (.object (fields ++ [("query", json)] ++ [("@type", .str kind)])) := by
  have noType : ∀ field ∈ (Dictionary.ofList fields).insert "query" json,
      field.1 ≠ "@type" := by
    intro field mem
    rcases Dictionary.mem_insert mem with same | mem
    · have ne : "query" ≠ "@type" := by decide
      rw [same]
      exact ne
    · exact (ne_of_plain plain field mem).2
  have whole : ∀ entry ∈ Dictionary.insert "query" (.query (some json))
      (Dictionary.mapValues Branch.value (Dictionary.ofList fields)), entry.2 ≠ .query none := by
    intro entry mem
    rcases Dictionary.mem_insert mem with rfl | mem
    · exact nofun
    · obtain ⟨field, -, rfl⟩ := List.mem_map.1 mem
      exact nofun
  have settled := filterMap_settleField_query "query" json (Dictionary.ofList fields)
  have listed : Dictionary.ofList (fields ++ [("query", json)]) =
      (Dictionary.ofList fields).insert "query" json := Json.obj.inj (object_concat _ _ _)
  rw [wire?_set_query, sent, object_concat, listed]
  exact settle_eq_some other (isBare_eq_false _ whole) settled noType

/-- A node that lost its query sends nothing, but for a comment. -/
theorem wire?_about_none (other : ∀ c : Combinator, kind ≠ c.kind) (plain : PlainFields fields)
    (silent : t.wire? = none) :
    ((Tree.empty.write kind fields).set "query" (.query t)).wire? =
      if kind = "Comment" then some (.object (fields ++ [("@type", .str kind)])) else none := by
  rw [wire?_set_query, silent]
  by_cases comment : kind = "Comment"
  · have absent : ∀ entry ∈ Dictionary.ofList fields, entry.1 ≠ "query" :=
      fun entry mem => (ne_of_plain plain entry mem).1
    have settled := filterMap_settleField_none absent
    rw [if_pos comment, object_concat]
    refine settle_eq_some other ?_ settled fun entry mem => (ne_of_plain plain entry mem).2
    simp [isBare, comment]
  · have notAnd : some kind ≠ some "And" := fun same => other .and (Option.some.inj same)
    have notOr : some kind ≠ some "Or" := fun same => other .or (Option.some.inj same)
    have lost := Dictionary.mem_of_find? (Dictionary.find?_insert_self "query"
      (.query (none : Option Json)) (Dictionary.mapValues Branch.value (Dictionary.ofList fields)))
    have bare : isBare (some kind) (Dictionary.insert "query" (.query (none : Option Json))
        (Dictionary.mapValues Branch.value (Dictionary.ofList fields))) = true := by
      rw [isBare, Bool.and_eq_true_iff]
      exact ⟨by simp [comment], List.any_eq_true.2 ⟨_, lost, rfl⟩⟩
    rw [if_neg comment, settle, if_neg notAnd, if_neg notOr, if_pos bare]

/-- A condition and its consequent are sent with what both send, if they both send something. -/
theorem wire?_when (t u : Tree) :
    (((Tree.empty.write Operation.when.kind []).set "query" (.query t)).set "consequent"
      (.query u)).wire? = t.wire?.bind fun json => u.wire?.map fun json₁ =>
        .object [("query", json), ("consequent", json₁), ("@type", .str Operation.when.kind)] := by
  show settle (some "When") [("consequent", .query u.wire?), ("query", .query t.wire?)] = _
  cases t.wire? with
  | none => cases u.wire? <;> rfl
  | some json =>
    cases u.wire? with
    | none => rfl
    | some json₁ =>
      have other : ∀ c : Combinator, "When" ≠ c.kind := by
        intro c
        cases c <;> decide
      have sorted : Dictionary.insert "consequent" json₁ [("query", json)] =
          [("consequent", json₁), ("query", json)] := if_pos (by decide)
      have noType : ∀ field ∈ [("consequent", json₁), ("query", json)], field.1 ≠ "@type" := by
        simp
      rw [← sorted] at noType
      exact settle_eq_some other rfl sorted.symm noType

end Tree

theorem Operation.kind_eq_comment_iff (op : Operation) : op.kind = "Comment" ↔ op = .comment := by
  cases op <;> decide

/-- What an operation about a query sends, given what the query sends. About nothing, only a comment
sends something. -/
def Host.sent (h : Host) (query : Json) (fields : List (String × Json)) : Json :=
  let kind := [("@type", Json.str h.operation.kind)]
  if query ≠ .obj [] then .object (fields ++ [("query", query)] ++ kind)
  else if h.operation = .comment then .object (fields ++ kind)
  else .obj []

/-- What a condition with a consequent sends, given what both send. -/
def sentWhen (condition consequent : Json) : Json :=
  if condition = .obj [] ∨ consequent = .obj [] then .obj []
  else .object [("query", condition), ("consequent", consequent),
    ("@type", .str Operation.when.kind)]

/-- What a host sends about a tree. -/
theorem Tree.wire_about (h : Host) {fields : List (String × Json)} (plain : PlainFields fields)
    (t : Tree) : ((Tree.empty.write h.operation.kind fields).set "query" (.query t)).wire =
      h.sent t.wire fields := by
  have other : ∀ c : Combinator, h.operation.kind ≠ c.kind :=
    Operation.kind_ne_combinator h.isSimple_operation
  unfold Host.sent
  cases sent : t.wire? with
  | none =>
    have silent : t.wire = .obj [] := (wire_eq_empty_iff t).2 sent
    rw [if_neg (not_not.2 silent), wire, wire?_about_none other plain sent]
    simp only [Operation.kind_eq_comment_iff]
    by_cases comment : h.operation = .comment
    · rw [if_pos comment, if_pos comment, Option.getD_some]
    · rw [if_neg comment, if_neg comment, Option.getD_none]
  | some json =>
    have said : t.wire ≠ .obj [] := fun none => by
      rw [(wire_eq_empty_iff t).1 none] at sent
      cases sent
    rw [if_pos said, wire_of_some (wire?_about other plain sent), wire_of_some sent]

/-- What a condition and a consequent send. -/
theorem Tree.wire_when (t u : Tree) :
    (((Tree.empty.write Operation.when.kind []).set "query" (.query t)).set "consequent"
      (.query u)).wire = sentWhen t.wire u.wire := by
  unfold sentWhen
  simp only [wire_eq_empty_iff]
  rw [wire, wire?_when, wire, wire]
  cases t.wire? with
  | none => rfl
  | some json =>
    cases u.wire? with
    | none => rfl
    | some json₁ => rfl

/-- The wire form is an object that sends itself. -/
theorem Tree.Legible.exists_wire_eq {t : Tree} (h : t.Legible) :
    ∃ fields, t.wire = .obj fields ∧ (Tree.ofFields fields).wire = t.wire := by
  cases sent : t.wire? with
  | none =>
    have silent : t.wire = .obj [] := (wire_eq_empty_iff t).2 sent
    have nothing : (Tree.ofFields []).wire? = none := Tree.wire?_empty
    exact ⟨[], silent, ((wire_eq_empty_iff _).2 nothing).trans silent.symm⟩
  | some json =>
    have stable := (h.settled_of_wire? json sent).stable
    cases json with
    | obj fields =>
      have again : (Tree.ofFields fields).wire? = some (.obj fields) := stable
      exact ⟨fields, wire_of_some sent, wire_inj.2 (again.trans sent.symm)⟩
    | _ => exact stable.elim

namespace Builder

variable {a b c : Builder}

/-- The query of a builder as it may be given to another one: the builder, or its raw form or its
wire form as a finished query. -/
def forms (b : Builder) : List SubQuery := [.query b, .json b.raw, .json b.wire]

/-- **Every form of a query sends what the query sends.** -/
theorem exists_tree_of_form (reachable : Reachable Initial b) {q : SubQuery} (form : q ∈ b.forms) :
    q.isFollowing = false ∧ ∃ t : Tree, (∀ op field, q.tree op field = .ok t) ∧
      t.wire = b.wire := by
  have legible := (legible_of_reachable reachable).tree
  simp only [forms, List.mem_cons, List.not_mem_nil, or_false] at form
  rcases form with rfl | rfl | rfl
  · exact ⟨rfl, _, fun _ _ => rfl, rfl⟩
  · obtain ⟨fields, written, read⟩ := legible.reads_raw
    have rawForm : b.raw = .obj fields := written
    rw [rawForm]
    exact ⟨rfl, _, fun _ _ => rfl, congrArg Tree.wire read⟩
  · obtain ⟨fields, written, same⟩ := legible.exists_wire_eq
    have wireForm : b.wire = .obj fields := written
    rw [wireForm]
    exact ⟨rfl, _, fun _ _ => rfl, same.trans written⟩

/-- On the empty query an edit sends what it writes. -/
theorem wire_perform_of_isEmpty (reachable : Reachable Initial a) (empty : a.isEmpty = true)
    {e : Edit} {w : Written} (wrote : e.written = .ok w) :
    (a.perform e).map wire = .ok w.tree.wire := by
  obtain ⟨k, realizes⟩ := realizes_of_reachable reachable
  have start := Sketch.eq_blank (realizes.tree_eq.symm.trans (tree_of_isEmpty empty))
  rw [start] at realizes
  have agrees := realizes.perform e
  rw [Sketch.perform_blank, wrote] at agrees
  obtain ⟨after, ran, realizes₁⟩ := agrees.exists_left
  rw [ran]
  have tree : after.store.tree after.root = w.tree := by
    rw [realizes₁.tree_eq, Sketch.tree_put fun _ _ => Edit.open_written wrote]
    rfl
  exact congrArg (fun t : Tree => Except.ok t.wire) tree

/-- A field of the first node that is written stands in what is sent. -/
theorem get?_wire_addNode (reachable : Reachable Initial a) (empty : a.isEmpty = true)
    {op : Operation} (simple : op.isSimple) {fields : List (String × Json)}
    (plain : PlainFields fields) (nodup : (fields.map Prod.fst).Nodup) {key : String} {json : Json}
    (mem : (key, json) ∈ fields) : (a.addNode op fields).wire.get? key = some json := by
  have sent : Except.ok (a.addNode op fields).wire = .ok (Tree.empty.write op.kind fields).wire :=
    wire_perform_of_isEmpty reachable empty (e := .write op fields) rfl
  rw [Except.ok.inj sent]
  exact Tree.get?_wire_write (Operation.kind_ne_combinator simple) plain nodup mem

/-- **A hosted query appears as what it sends**, whichever form it is given in. -/
theorem about_wire (start : Reachable Initial a) (empty : a.isEmpty = true)
    (reachable : Reachable Initial b) (reachable₁ : Reachable Initial c) :
    (∀ host, ∀ q ∈ b.forms, (a.run (.about host q)).map wire =
      (host.fields a.vocabulary).map (host.sent b.wire)) ∧
    ∀ q ∈ b.forms, ∀ q₁ ∈ c.forms,
      (a.run (.when q q₁)).map wire = .ok (sentWhen b.wire c.wire) := by
  constructor
  · intro host q form
    obtain ⟨given, t, found, same⟩ := exists_tree_of_form reachable form
    rw [run_eq_perform, Call.edit]
    cases made : host.fields a.vocabulary with
    | error e => rfl
    | ok fields =>
      have plain : PlainFields fields := host.fields_plain a.vocabulary fields made
      have wrote : (Edit.host host.operation fields q).written = .ok
          ⟨(Tree.empty.write host.operation.kind fields).set "query" (.query t), none⟩ := by
        rw [Edit.written, found, given]
        rfl
      have performed := wire_perform_of_isEmpty start empty wrote
      rw [Tree.wire_about host plain, same] at performed
      exact performed
  · intro q form q₁ form₁
    obtain ⟨given, t, found, same⟩ := exists_tree_of_form reachable form
    obtain ⟨given₁, u, found₁, same₁⟩ := exists_tree_of_form reachable₁ form₁
    have wrote : (Edit.when q q₁).written = .ok
        ⟨((Tree.empty.write Operation.when.kind []).set "query" (.query t)).set "consequent"
          (.query u), none⟩ := by
      rw [Edit.written, found, found₁, given, given₁]
      rfl
    have performed := wire_perform_of_isEmpty start empty wrote
    rw [Tree.wire_when, same, same₁] at performed
    exact performed

/-- A query that says something and one that says nothing, under a limit, in a comment and as the
parts of a condition. -/
theorem about_wire_truth : ∃ b c, Reachable Initial b ∧ Reachable Initial c ∧
    fresh.isEmpty = true ∧ b.wire = .obj [("@type", .str "True")] ∧ c.wire = .obj [] ∧
    (∀ q ∈ b.forms, (fresh.run (.about (.limit 5) q)).map wire = .ok (.obj
      [("@type", .str "Limit"), ("limit", .int 5), ("query", .obj [("@type", .str "True")])])) ∧
    (∀ q ∈ c.forms, (fresh.run (.about (.limit 5) q)).map wire = .ok (.obj []) ∧
      (fresh.run (.about (.comment "note") q)).map wire = .ok (.obj [("@type", .str "Comment"),
        ("comment", .obj [("@type", .str "xsd:string"), ("@value", .str "note")])])) ∧
    ∀ q ∈ b.forms, ∀ q₁ ∈ c.forms, (fresh.run (.when q q₁)).map wire = .ok (.obj []) := by
  obtain ⟨b, ran, sent⟩ : ∃ b, fresh.run .truth = .ok b ∧
      b.wire = .obj [("@type", .str "True")] := ⟨_, rfl, rfl⟩
  have start : Reachable Initial fresh := .start (.ofVocabulary .standard)
  have reachable : Reachable Initial b := .run start (by simp [Call.subQueries]) ran
  have nothing : fresh.wire = .obj [] := rfl
  obtain ⟨hosted, conditions⟩ := about_wire start rfl reachable start
  obtain ⟨silent, -⟩ := about_wire start rfl start start
  refine ⟨b, fresh, reachable, start, rfl, sent, nothing, fun q form => ?_,
    fun q form => ⟨?_, ?_⟩, fun q form q₁ form₁ => ?_⟩
  · rw [hosted (.limit 5) q form, sent]
    rfl
  · rw [silent (.limit 5) q form]
    rfl
  · rw [silent (.comment "note") q form]
    rfl
  · rw [conditions q form q₁ form₁, nothing, sentWhen, if_pos (.inr rfl)]

end Builder

end GraphQuery
