import GraphQuery.Proofs.Coercion
import GraphQuery.Proofs.Replacement

/-!
# The subjects and predicates that are written

The subject and the predicate of an edge and the subject of a path are references: a variable, the
name of a node, or a finished part of a query, which is written as it is. But a finished value, an
object with an `@value`, is accepted as well and written as a literal, as it would be in any slot.

Key definitions: `Term.Identifies`, `Term.isFinishedValue`, `Call.references`, `Call.Writes`.
Key theorems: `Position.refers_of_reference`, `Builder.run_references`,
`Builder.run_references_literal`.
-/

namespace GraphQuery

namespace Term

/-- What stands for a node: a variable, a name, or the finished part that was given. -/
inductive Identifies (term : Term) : Json → Prop where
  | variable (name : String) : Identifies term (Slot.node.holding "variable" (.str name))
  | node (name : String) : Identifies term (Slot.node.holding "node" (.str name))
  | finished {fields : Dictionary Json} : term = .json (.obj fields) →
    Identifies term (.obj fields)

/-- Whether a term is a finished value. -/
def isFinishedValue : Term → Bool
  | .json given => (given.get? "@value").isSome
  | _ => false

/-- What a term that is taken for a reference is written as. It stands for a node unless the term is
a finished value. -/
structure Refers (vocabulary : Vocabulary) (term : Term) (json : Json) : Prop where
  becomes : term.Becomes vocabulary .node none json
  identifies_iff : term.Identifies json ↔ term.isFinishedValue = false

variable {vocabulary : Vocabulary} {term : Term} {json : Json}

/-- A literal stands for no node: what was given has an `@value`, and the literal has none. -/
theorem not_identifies_data (value : term.isFinishedValue = true) {data : Json}
    (literal : json = Slot.node.holding "data" data) : ¬ term.Identifies json := by
  rintro (name | name | same)
  · simp [Slot.holding] at literal
  · simp [Slot.holding] at literal
  · rw [same, literal] at value
    simp [isFinishedValue, Slot.holding, Dictionary.find?] at value

/-- A finished object is written as it is unless it is a value. -/
theorem refers_obj {fields : Dictionary Json}
    (becomes : Becomes vocabulary .node none (.json (.obj fields)) json) :
    Refers vocabulary (.json (.obj fields)) json := by
  refine ⟨becomes, ?_⟩
  cases becomes with
  | typed value typed | untyped value typed =>
    have value : isFinishedValue (.json (.obj fields)) = true := value
    rw [value]
    exact iff_of_false (not_identifies_data value rfl) nofun
  | finished absent => exact iff_of_true (.finished rfl) (by rw [isFinishedValue, absent]; rfl)
  | bare found => cases found

/-- A string is written as a variable or as a name. -/
theorem refers_str {s : String} (becomes : Becomes vocabulary .node none (.str s) json) :
    Refers vocabulary (.str s) json := by
  refine ⟨becomes, iff_of_true ?_ rfl⟩
  cases becomes with
  | prefixed name => exact .variable name
  | node other names => exact .node _
  | text other noNode => exact absurd (.inl rfl) noNode
  | bare found => cases found

/-- A variable is written as such. -/
theorem refers_variable {name : String} :
    Becomes vocabulary .node none (.variable name) json → Refers vocabulary (.variable name) json
  | .variable name => ⟨.variable name, iff_of_true (.variable name) rfl⟩

end Term

/-- **A reference stands for a node unless a finished value was given.** -/
theorem Position.refers_of_reference {p : Position} {vocabulary : Vocabulary} {label : String}
    {term : Term} {json : Json} (found : p.reference vocabulary label term = .ok json) :
    term.Refers vocabulary json := by
  unfold reference at found
  split at found
  · exact Term.refers_str (p.fill_eq_ok_iff.1 found)
  · exact Term.refers_variable (p.fill_eq_ok_iff.1 found)
  · exact Term.refers_obj (p.fill_eq_ok_iff.1 found)
  · cases found

/-! ### What is written -/

theorem Tree.Legible.get?_raw_written {t : Tree} {kind : String} {given : List (String × Json)}
    (h : (t.write kind given).Legible) (nodup : (given.map Prod.fst).Nodup) {key : String}
    {json : Json} (mem : (key, json) ∈ given) :
    (t.write kind given).raw.get? key = some json := by
  have found : (t.write kind given).fields.find? key = some (.value json) :=
    Branch.find?_withValues_of_mem nodup mem t.fields
  have ne : key ≠ "@type" := (h.fits _ (Dictionary.mem_of_find? found)).ne_type
  rw [h.get?_raw ne, found]
  rfl

/-- Among the fields are those of references, with what the terms are written as. -/
def Refer (vocabulary : Vocabulary) (references : List (String × Term))
    (fields : List (String × Json)) : Prop :=
  ∀ reference ∈ references, ∃ json, (reference.1, json) ∈ fields ∧
    reference.2.Refers vocabulary json

namespace Builder

theorem edgeParts_refer (vocabulary : Vocabulary) (op : Operation)
    (subject predicate object : Term) :
    Yields (edgeParts vocabulary op subject predicate object)
      (Refer vocabulary [("subject", subject), ("predicate", predicate)]) := by
  refine .bind fun first found => .bind fun second found₁ => .bind fun third _ => .ok ?_
  have refers := Position.refers_of_reference found
  have refers₁ := Position.refers_of_reference found₁
  exact List.forall_mem_cons.2 ⟨⟨first, by simp, refers⟩,
    List.forall_mem_singleton.2 ⟨second, by simp, refers₁⟩⟩

theorem edgeFields_refer (vocabulary : Vocabulary) (op : Operation)
    (subject predicate object : Term) (graph : Option String) :
    Yields (edgeFields vocabulary op subject predicate object graph)
      (Refer vocabulary [("subject", subject), ("predicate", predicate)]) := by
  have parts := edgeParts_refer vocabulary op subject predicate object
  cases graph with
  | none => exact parts
  | some graph =>
    simp only [edgeFields]
    by_cases blank : isBlank graph
    · rw [if_pos blank]
      exact .error
    · rw [if_neg blank]
      refine .bind fun fields found => .ok fun reference mem => ?_
      obtain ⟨json, listed, refers⟩ := parts fields found reference mem
      exact ⟨json, List.mem_append_left _ listed, refers⟩

theorem pathFields_refer (vocabulary : Vocabulary) (subject : Term) (pattern : Pattern)
    (object path : Term) : Yields (pathFields vocabulary subject pattern object path)
      (Refer vocabulary [("subject", subject)]) := by
  refine .bind fun first found => .bind fun _ _ => .bind fun _ _ => .ok ?_
  exact List.forall_mem_singleton.2 ⟨first, by simp, Position.refers_of_reference found⟩

end Builder

namespace Call

/-- The terms that a call takes for references, with the fields they are written in. -/
def references : Call → List (String × Term)
  | edge _ subject predicate _ _ | replace subject predicate _ _ =>
    [("subject", subject), ("predicate", predicate)]
  | star _ => [("subject", .str "v:Subject"), ("predicate", .str "v:Predicate")]
  | path subject _ _ _ | along subject _ _ _ => [("subject", subject)]
  | _ => []

theorem isStatement_of_references {call : Call} (given : call.references ≠ []) :
    call.isStatement = true := by
  cases call with
  | and | or | about | when => exact absurd rfl given
  | _ => rfl

/-- The nodes of edges and paths that a call writes in the query at the cursor. A replacement writes
four at the end of a conjunction. -/
def Writes (here : Json) (nodes : List Json) : Call → Prop
  | replace _ _ _ graph => ∃ earlier found deleted refused added,
    nodes = [found, deleted, refused, added] ∧
    nodes.map Json.kind? = [EdgeKind.present, .delete, .present, .add].map
      (fun kind => some (kind.operation graph.isSome).kind) ∧
    here.kind? = some "And" ∧ here.get? "and" = some (.arr (earlier ++ [
      .obj [("@type", .str "Optional"), ("query", .obj [("@type", .str "And"),
        ("and", .arr [found, deleted, .obj [("@type", .str "Not"), ("query", refused)]])])],
      added]))
  | call => nodes = [here] ∧ here.kind? = some call.operation.kind

end Call

namespace Builder

variable {b after : Builder} {call : Call}

/-- A statement leaves a legible query at the cursor. -/
theorem legible_cursor (reachable : Reachable Initial b) (statement : call.isStatement = true)
    (ran : b.run call = .ok after) : (after.store.tree after.cursor).Legible := by
  have parts : ∀ q, SubQuery.query q ∈ call.subQueries → Reachable Initial q := by
    rw [Call.subQueries_of_isStatement statement]
    exact nofun
  obtain ⟨k, realizes, legible⟩ := legible_of_reachable (.run reachable parts ran)
  rw [realizes.tree_cursor]
  exact legible.focus

/-- **A node that is written is at the cursor.** It may be written over one without a kind. -/
theorem exists_cursor_of_write (reachable : Reachable Initial b)
    (statement : call.isStatement = true) {op : Operation} {fields : List (String × Json)}
    (found : call.edit b.vocabulary b.expandsPaths = .ok (.write op fields))
    (ran : b.run call = .ok after) : ∃ t : Tree, (t.write op.kind fields).Legible ∧
      after.atCursor = (t.write op.kind fields).raw := by
  have legible := legible_cursor reachable statement ran
  obtain ⟨k, realizes⟩ := realizes_of_reachable reachable
  have ran : b.perform (.write op fields) = .ok after := by
    rwa [run_eq_perform, found] at ran
  obtain ⟨k₁, wrote, realizes₁⟩ := (ran ▸ realizes.perform (.write op fields)).exists_right
  cases wrote
  have tree : after.store.tree after.cursor = k.free.focus.write op.kind fields :=
    realizes₁.tree_cursor
  rw [tree] at legible
  exact ⟨k.free.focus, legible, congrArg Tree.raw tree⟩

/-- The terms of references stand in the fields of a node. -/
def Stand (vocabulary : Vocabulary) (references : List (String × Term)) (node : Json) : Prop :=
  ∀ reference ∈ references, ∃ json, node.get? reference.1 = some json ∧
    reference.2.Refers vocabulary json

variable {vocabulary : Vocabulary} {references : List (String × Term)}

theorem stand_write {t : Tree} {kind : String} {fields : List (String × Json)}
    (legible : (t.write kind fields).Legible) (nodup : (fields.map Prod.fst).Nodup)
    (refer : Refer vocabulary references fields) :
    (t.write kind fields).raw.kind? = some kind ∧
      Stand vocabulary references (t.write kind fields).raw := by
  refine ⟨legible.kind?_raw, fun reference mem => ?_⟩
  obtain ⟨json, listed, refers⟩ := refer reference mem
  exact ⟨json, legible.get?_raw_written nodup listed, refers⟩

/-- An edge of a replacement. -/
theorem stand_node {op : Operation} {subject predicate object : Term} {graph : Option String}
    {fields : List (String × Json)}
    (found : edgeFields vocabulary op subject predicate object graph = .ok fields)
    (kind : EdgeKind) : (kind.node graph.isSome fields).raw.kind? =
        some (kind.operation graph.isSome).kind ∧
      Stand vocabulary [("subject", subject), ("predicate", predicate)]
        (kind.node graph.isSome fields).raw := by
  have legible : (kind.node graph.isSome fields).Legible :=
    Tree.legible_empty.write rfl
      (fun c => Operation.kind_ne_combinator (kind.isSimple_operation graph.isSome) c)
      (edgeFields_plain vocabulary op subject predicate object graph fields found)
  exact stand_write legible
    (edgeFields_nodup vocabulary op subject predicate object graph fields found)
    (edgeFields_refer vocabulary op subject predicate object graph fields found)

/-- The references of a node that is written stand at the cursor. -/
theorem stand_cursor (reachable : Reachable Initial b) (given : call.references ≠ [])
    {fields : List (String × Json)}
    (found : call.edit b.vocabulary b.expandsPaths = .ok (.write call.operation fields))
    (ran : b.run call = .ok after) (nodup : (fields.map Prod.fst).Nodup)
    (refer : Refer b.vocabulary references fields) :
    after.atCursor.kind? = some call.operation.kind ∧
      Stand b.vocabulary references after.atCursor := by
  have statement := Call.isStatement_of_references given
  obtain ⟨t, legible, cursor⟩ := exists_cursor_of_write reachable statement found ran
  rw [cursor]
  exact stand_write legible nodup refer

/-- A replacement writes its references in four edges. -/
theorem stand_replace (reachable : Reachable Initial b) {subject predicate object : Term}
    {graph : Option String} (ran : b.run (.replace subject predicate object graph) = .ok after) :
    ∃ nodes, (Call.replace subject predicate object graph).Writes after.atCursor nodes ∧
      ∀ node ∈ nodes, Stand b.vocabulary [("subject", subject), ("predicate", predicate)] node := by
  have legible := legible_cursor reachable rfl ran
  obtain ⟨k, realizes⟩ := realizes_of_reachable reachable
  obtain ⟨t, old, new, found, found₁, kind, tree⟩ := cursor_of_replace realizes ran
  rw [← realizes.vocabulary_eq] at found found₁
  rw [tree] at legible
  have list := Tree.get?_raw_append (by decide) legible
  have seen := stand_node found .present
  have deleted := stand_node found .delete
  have refused := stand_node found₁ .present
  have added := stand_node found₁ .add
  rw [atCursor, Store.raw, tree]
  refine ⟨[(EdgeKind.present.node graph.isSome old).raw,
    (EdgeKind.delete.node graph.isSome old).raw, (EdgeKind.present.node graph.isSome new).raw,
    (EdgeKind.add.node graph.isSome new).raw],
    ⟨(t.children "and").map Tree.raw, _, _, _, _, rfl, ?_, ?_, list⟩, ?_⟩
  · simp only [List.map_cons, List.map_nil, seen.1, deleted.1, refused.1, added.1]
  · exact legible.kind?_raw.trans kind
  · simp only [List.forall_mem_cons]
    exact ⟨seen.2, deleted.2, refused.2, added.2, List.forall_mem_nil _⟩

/-- Another call that takes references writes one node. -/
theorem refer_edit {vocabulary : Vocabulary} {expandsPaths : Bool} {e : Edit}
    (given : call.references ≠ []) (single : call.operation.isComposite = false)
    (found : call.edit vocabulary expandsPaths = .ok e) : ∃ fields,
      e = .write call.operation fields ∧ (fields.map Prod.fst).Nodup ∧
        Refer vocabulary call.references fields := by
  have edge : ∀ {op : Operation} {subject predicate object : Term} {graph : Option String},
      (edgeFields vocabulary op subject predicate object graph).map (.write op) = .ok e →
        ∃ fields, e = .write op fields ∧ (fields.map Prod.fst).Nodup ∧
          Refer vocabulary [("subject", subject), ("predicate", predicate)] fields := by
    intro op subject predicate object graph found
    obtain ⟨fields, made, rfl⟩ := map_eq_ok_iff.1 found
    exact ⟨fields, rfl, edgeFields_nodup _ _ _ _ _ _ fields made,
      edgeFields_refer _ _ _ _ _ _ fields made⟩
  have path : ∀ {subject object bound : Term} {pattern : Pattern},
      (pathFields vocabulary subject pattern object bound).map (.write .path) = .ok e →
        ∃ fields, e = .write .path fields ∧ (fields.map Prod.fst).Nodup ∧
          Refer vocabulary [("subject", subject)] fields := by
    intro subject object bound pattern found
    obtain ⟨fields, made, rfl⟩ := map_eq_ok_iff.1 found
    exact ⟨fields, rfl, pathFields_nodup _ _ _ _ _ fields made,
      pathFields_refer _ _ _ _ _ fields made⟩
  cases call with
  | edge kind subject predicate object graph => exact edge found
  | star graph => exact edge found
  | replace subject predicate object graph => cases graph <;> cases single
  | path subject text object bound =>
    obtain ⟨pattern, -, later⟩ := bind_eq_ok_iff.1 found
    obtain ⟨fields, made, same⟩ := bind_eq_ok_iff.1 later
    exact path (map_eq_ok_iff.2 ⟨fields, made, Except.ok.inj same⟩)
  | along subject pattern object bound => exact path found
  | _ => exact absurd rfl given

/-- **A subject or predicate that is written stands for a node, unless a finished value was given.**
-/
theorem run_references (reachable : Reachable Initial b) (given : call.references ≠ [])
    (ran : b.run call = .ok after) : ∃ nodes, call.Writes after.atCursor nodes ∧
      ∀ node ∈ nodes, ∀ reference ∈ call.references, ∃ json,
        node.get? reference.1 = some json ∧ reference.2.Refers b.vocabulary json := by
  rcases single_or_replace call with single | ⟨subject, predicate, object, graph, rfl⟩
  · have performed := ran
    rw [run_eq_perform] at performed
    obtain ⟨e, found, -⟩ := bind_eq_ok_iff.1 performed
    obtain ⟨fields, rfl, nodup, refer⟩ := refer_edit given single found
    obtain ⟨kind, stand⟩ := stand_cursor reachable given found ran nodup refer
    refine ⟨[after.atCursor], ?_, List.forall_mem_singleton.2 stand⟩
    cases call with
    | replace subject predicate object graph => cases graph <;> cases single
    | _ => exact ⟨rfl, kind⟩
  · exact stand_replace reachable ran

/-- A finished node as the subject of a replacement. -/
theorem run_references_node : ∃ call after,
    call = .replace (.json (.obj [("@type", .str "NodeValue"), ("node", .str "doc:a")]))
      (.str "name") (.str "Bob") none ∧ fresh.run call = .ok after ∧ call.references ≠ [] ∧
    ∃ nodes, call.Writes after.atCursor nodes ∧
      ∀ node ∈ nodes, ∀ reference ∈ call.references, ∃ json,
        node.get? reference.1 = some json ∧ reference.2.Refers fresh.vocabulary json := by
  obtain ⟨call, after, same, ran⟩ : ∃ call after,
      call = Call.replace (.json (.obj [("@type", .str "NodeValue"), ("node", .str "doc:a")]))
        (.str "name") (.str "Bob") none ∧ fresh.run call = .ok after := ⟨_, _, rfl, rfl⟩
  have given : call.references ≠ [] := by
    rw [same]
    exact List.cons_ne_nil _ _
  exact ⟨call, after, same, ran, given, run_references (.start (.ofVocabulary .standard)) given ran⟩

/-- A finished value is written as a literal, which stands for no node. -/
theorem run_references_literal : ∃ subject after json,
    subject = .json (.obj [("@type", .str "xsd:string"), ("@value", .str "Bob")]) ∧
    fresh.run (.edge .present subject (.str "name") (.str "v:X") none) = .ok after ∧
    after.atCursor.get? "subject" = some json ∧
    json = .obj [("@type", .str "NodeValue"),
      ("data", .obj [("@type", .str "xsd:string"), ("@value", .str "Bob")])] ∧
    ¬ subject.Identifies json :=
  ⟨_, _, _, rfl, rfl, rfl, rfl, Term.not_identifies_data rfl rfl⟩

end Builder

end GraphQuery
