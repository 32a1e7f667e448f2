import GraphQuery.Proofs.BuiltTree
import GraphQuery.Proofs.Success
import GraphQuery.Query.Call

/-!
# The names of the fields that calls write

The names of the fields that a call makes from its arguments depend on the operation only, and on
whether an argument is left out that may be. The scan for updates does not look under them.

Key definitions: `Operation.isSimple`, `Yields`, `Under`, `PlainFields`, `EdgeKind.parameters`,
`Host.names`.
Key theorems: `Operation.kind_ne_combinator`, `Builder.edgeFields_under`,
`Builder.slotFields_under`, `Host.fields_under`.
-/

namespace GraphQuery

namespace Operation

/-- Whether the operation writes one node that is no combination. -/
def isSimple (op : Operation) : Bool := !(op.isComposite || op = and || op = or)

theorem kind_ne_combinator {op : Operation} (simple : op.isSimple) (c : Combinator) :
    op.kind ≠ c.kind := by
  revert simple
  cases op <;> cases c <;> decide

theorem isUpdate_of_isSimple {op : Operation} (simple : op.isSimple) :
    op.isUpdate = isUpdateKind op.kind := by
  unfold isUpdate
  have notComposite : op.isComposite = false := by
    by_contra composite
    simp [isSimple, composite] at simple
  rw [notComposite, Bool.false_or]

/-- An operation that only fills slots writes one node. -/
theorem isSimple_of_slots {op : Operation} (slotted : op.slots ≠ []) : op.isSimple := by
  cases op <;> first | rfl | exact absurd rfl slotted

theorem slots_plain (op : Operation) : ∀ slot ∈ op.slots, PlainKey slot.1 := by
  cases op <;> decide

end Operation

/-- A property of what comes out, if anything does. -/
def Yields {α : Type} (x : Except Error α) (property : α → Prop) : Prop :=
  ∀ a, x = .ok a → property a

namespace Yields

variable {α β : Type} {x : Except Error α} {property : β → Prop}

theorem ok {b : β} (h : property b) : Yields (.ok b) property := by
  intro a same
  cases same
  exact h

theorem error {e : Error} : Yields (.error e) property := fun _ same => nomatch same

theorem bind {f : α → Except Error β} (h : ∀ a, x = .ok a → Yields (f a) property) :
    Yields (x >>= f) property := by
  intro b same
  cases x with
  | error e => cases same
  | ok a => exact h a rfl b same

theorem map {f : α → β} (h : ∀ a, x = .ok a → property (f a)) : Yields (x.map f) property := by
  intro b same
  cases x with
  | error e => cases same
  | ok a =>
    cases same
    exact h a rfl

end Yields

/-- Fields under exactly the given names, in order. -/
def Under (names : List String) (fields : List (String × Json)) : Prop :=
  fields.map Prod.fst = names

theorem Under.append {names more : List String} {fields added : List (String × Json)}
    (h : Under names fields) (h₁ : Under more added) : Under (names ++ more) (fields ++ added) := by
  unfold Under at h h₁ ⊢
  rw [List.map_append, h, h₁]

/-- Fields under which the scan does not look. -/
def PlainFields (fields : List (String × Json)) : Prop := ∀ field ∈ fields, PlainKey field.1

/-- Fields are plain if their names are. -/
theorem Yields.plain {x : Except Error (List (String × Json))} {names : List String}
    (h : Yields x (Under names)) (plain : ∀ name ∈ names, PlainKey name) :
    Yields x PlainFields := by
  intro fields found field mem
  rw [← h fields found] at plain
  exact plain _ (List.mem_map_of_mem mem)

/-- The parameters of an operation on an edge, in the default graph or in one that is named. -/
def EdgeKind.parameters (named : Bool) : List String :=
  ["subject", "predicate", "object"] ++ if named then ["graph"] else []

theorem EdgeKind.parameters_operation (kind : EdgeKind) (named : Bool) :
    (kind.operation named).parameters = parameters named := by
  cases kind <;> cases named <;> rfl

theorem EdgeKind.isSimple_operation (kind : EdgeKind) (named : Bool) :
    (kind.operation named).isSimple := by
  cases kind <;> cases named <;> rfl

namespace Builder

variable (vocabulary : Vocabulary)

theorem edgeParts_under (op : Operation) (subject predicate object : Term) :
    Yields (edgeParts vocabulary op subject predicate object)
      (Under ["subject", "predicate", "object"]) :=
  .bind fun _ _ => .bind fun _ _ => .bind fun _ _ => .ok rfl

theorem edgeFields_under (op : Operation) (subject predicate object : Term)
    (graph : Option String) : Yields (edgeFields vocabulary op subject predicate object graph)
      (Under (EdgeKind.parameters graph.isSome)) := by
  have parts := edgeParts_under vocabulary op subject predicate object
  cases graph with
  | none => exact parts
  | some graph =>
    simp only [edgeFields]
    by_cases blank : isBlank graph
    · rw [if_pos blank]
      exact .error
    · rw [if_neg blank]
      exact .bind fun fields found => .ok ((parts fields found).append rfl)

theorem edgeFields_plain (op : Operation) (subject predicate object : Term)
    (graph : Option String) :
    Yields (edgeFields vocabulary op subject predicate object graph) PlainFields := by
  refine (edgeFields_under vocabulary op subject predicate object graph).plain ?_
  cases graph.isSome <;> decide

/-- No field of an edge is given twice. -/
theorem edgeFields_nodup (op : Operation) (subject predicate object : Term)
    (graph : Option String) : Yields (edgeFields vocabulary op subject predicate object graph)
      fun fields => (fields.map Prod.fst).Nodup := by
  intro fields found
  rw [edgeFields_under vocabulary op subject predicate object graph fields found]
  cases graph.isSome <;> decide

theorem optionalArgument_under (field : String) (term : Term) (fill : Term → Except Error Json) :
    Yields (optionalArgument field term fill) (Under (if term.isNull then [] else [field])) := by
  unfold optionalArgument
  by_cases null : term.isNull
  · rw [if_pos null, if_pos null]
    exact .ok rfl
  · rw [if_neg null, if_neg null]
    exact .map fun _ _ => rfl

theorem pathFields_under (subject : Term) (pattern : Pattern) (object path : Term) :
    Yields (pathFields vocabulary subject pattern object path)
      (Under (["subject", "pattern", "object"] ++ if path.isNull then [] else ["path"])) :=
  .bind fun _ _ => .bind fun _ _ => .bind fun bound found => .ok <|
    congrArg (["subject", "pattern", "object"] ++ ·)
      (optionalArgument_under "path" path _ bound found)

theorem pathFields_plain (subject : Term) (pattern : Pattern) (object path : Term) :
    Yields (pathFields vocabulary subject pattern object path) PlainFields := by
  refine (pathFields_under vocabulary subject pattern object path).plain ?_
  cases path.isNull <;> decide

theorem pathFields_nodup (subject : Term) (pattern : Pattern) (object path : Term) :
    Yields (pathFields vocabulary subject pattern object path)
      fun fields => (fields.map Prod.fst).Nodup := by
  intro fields found
  rw [pathFields_under vocabulary subject pattern object path fields found]
  cases path.isNull <;> decide

theorem measureFields_under (op : Operation) (field resource : String) (amount : Term) :
    Yields (measureFields vocabulary op field resource amount) (Under ["resource", field]) :=
  .bind fun _ _ => .bind fun _ _ => .ok rfl

theorem measureFields_plain (op : Operation) {field : String} (plain : PlainKey field)
    (resource : String) (amount : Term) :
    Yields (measureFields vocabulary op field resource amount) PlainFields := by
  have first : PlainKey "resource" := by decide
  exact (measureFields_under vocabulary op field resource amount).plain
    (List.forall_mem_cons.2 ⟨first, List.forall_mem_singleton.2 plain⟩)

theorem length_preparedArguments (op : Operation) (terms : List Term) :
    (preparedArguments op terms).length = terms.length := by
  unfold preparedArguments
  split <;> rfl

/-- There is a term for each slot. -/
theorem names_zip_preparedArguments {op : Operation} {terms : List Term}
    (complete : terms.length = op.slots.length) :
    ((op.slots.zip (preparedArguments op terms)).map fun argument => argument.1.1) =
      op.slots.map Prod.fst := by
  have length := (length_preparedArguments op terms).trans complete
  have fst := List.map_fst_zip (Nat.le_of_eq length.symm)
  rw [← congrArg (List.map Prod.fst) fst, List.map_map]
  rfl

theorem slotFields_under (op : Operation) (terms : List Term) :
    Yields (slotFields vocabulary op terms)
      (Under ((slotArguments op terms).map fun argument => argument.1.1)) := by
  intro fields found
  replace found := mapM_eq_ok_iff.1 found
  generalize slotArguments op terms = arguments at found ⊢
  induction found with
  | nil => rfl
  | cons filled _ ih =>
    obtain ⟨json, -, rfl⟩ := map_eq_ok_iff.1 filled
    exact congrArg (List.cons _) ih

theorem slotFields_plain (op : Operation) (terms : List Term) :
    Yields (slotFields vocabulary op terms) PlainFields := by
  refine (slotFields_under vocabulary op terms).plain (List.forall_mem_map.2 fun argument mem => ?_)
  have listed : argument.1 ∈ op.slots := (List.of_mem_zip (List.mem_of_mem_filter mem)).1
  exact op.slots_plain argument.1 listed

end Builder

namespace Host

theorem isSimple_operation (h : Host) : h.operation.isSimple := by
  cases h <;> rfl

/-- The names of the fields but for the query. -/
def names (h : Host) : List String := h.operation.parameters.dropLast

/-- The last parameter of a host is its query. -/
theorem names_append_query (h : Host) : h.names ++ ["query"] = h.operation.parameters := by
  cases h <;> rfl

theorem names_plain (h : Host) : ∀ name ∈ h.names, PlainKey name := by
  have others : ∀ op : Operation, op.family = .control → op ≠ .when →
      ∀ name ∈ op.parameters.dropLast, PlainKey name := by
    intro op
    cases op <;> decide
  cases h <;> exact others _ rfl nofun

theorem fields_under (vocabulary : Vocabulary) (h : Host) :
    Yields (h.fields vocabulary) (Under h.names) := by
  cases h with
  | not | optional | once | immediately | limit | start | comment => exact .ok rfl
  | select | distinct | count | fromGraph | intoGraph | usingCollection =>
    exact .map fun _ _ => rfl
  | orderBy keys =>
    simp only [fields]
    by_cases none : keys.isEmpty
    · rw [if_pos none]
      exact .error
    · rw [if_neg none]
      exact .ok rfl
  | groupBy terms template grouped =>
    refine .bind fun first found => .bind fun second found₁ => .bind fun _ _ => .ok ?_
    obtain ⟨groups, -, rfl⟩ := map_eq_ok_iff.1 found
    obtain ⟨templates, -, rfl⟩ := map_eq_ok_iff.1 found₁
    rfl

theorem fields_plain (vocabulary : Vocabulary) (h : Host) :
    Yields (h.fields vocabulary) PlainFields := (h.fields_under vocabulary).plain h.names_plain

end Host

end GraphQuery
