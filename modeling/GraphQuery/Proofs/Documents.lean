import GraphQuery.Proofs.Hosting
import GraphQuery.Proofs.References
import GraphQuery.Term.Document

/-!
# Documents in queries

What a document is written as says what its content was: the content can be read back, whatever its
names and strings are, and although wrappers of the same names stand around them. The operations
that insert and update a document write it as it is. Nothing else they are given changes it, and it
is never taken for a value that lacks a datatype.

Key definitions: `readDocument`, `DocumentChange`.
Key theorems: `readDocument_encodeDocument`, `encodeDocument_injective`,
`Builder.slotFields_document`, `Builder.run_document`.
-/

namespace GraphQuery

/-! ### Reading a document back -/

mutual

/-- The content of a document from what it is written as. -/
def readDocument : Json → Json
  | .obj [_, ("data", .obj [_, (_, value)])] => value
  | .obj [_, ("variable", .str name)] => .str (variableText name)
  | .obj [_, ("list", .arr items)] => .arr (readItems items)
  | .obj [_, ("dictionary", .obj [_, (_, .arr pairs)])] => .obj (readPairs pairs)
  | _ => .null

def readItems : List Json → List Json
  | [] => []
  | item :: rest => readDocument item :: readItems rest

def readPairs : List Json → List (String × Json)
  | .obj [_, (_, .str field), (_, value)] :: rest => (field, readDocument value) :: readPairs rest
  | _ => []

end

theorem readDocument_documentText (s : String) : readDocument (documentText s) = .str s := by
  unfold documentText
  cases found : variableOf? s with
  | some name =>
    rw [variableOf?_eq_some_iff.1 found]
    simp [readDocument]
  | none => simp [documentScalar, Term.typedValue, readDocument]

mutual

/-- **The content of a document can be read back.** -/
theorem readDocument_encodeDocument : ∀ content : Json,
    readDocument (encodeDocument content) = content
  | .null => by simp [encodeDocument, readDocument]
  | .bool b => by simp [encodeDocument, documentScalar, Term.typedValue, readDocument]
  | .number n => by simp [encodeDocument, documentScalar, Term.typedValue, readDocument]
  | .str s => readDocument_documentText s
  | .arr items => by simp [encodeDocument, readDocument, readItems_encodeItems items]
  | .obj fields => by
    simp [encodeDocument, documentTemplate, readDocument, readPairs_encodeFields fields]

theorem readItems_encodeItems : ∀ items : List Json, readItems (encodeItems items) = items
  | [] => by simp [encodeItems, readItems]
  | item :: rest => by
    rw [encodeItems, readItems, readDocument_encodeDocument item, readItems_encodeItems rest]

theorem readPairs_encodeFields : ∀ fields : List (String × Json),
    readPairs (encodeFields fields) = fields
  | [] => by simp [encodeFields, readPairs]
  | (key, value) :: rest => by
    rw [encodeFields, readPairs, readDocument_encodeDocument value, readPairs_encodeFields rest]

end

/-- Different contents are written differently. -/
theorem encodeDocument_injective : Function.Injective encodeDocument :=
  Function.LeftInverse.injective readDocument_encodeDocument

/-- A document is never written as a bare value, so no slot takes it for one. -/
theorem get?_value_encodeDocument (content : Json) :
    (encodeDocument content).get? "@value" = none := by
  have held : ∀ key value, key ≠ "@value" →
      (Json.obj [("@type", .str "Value"), (key, value)]).get? "@value" = none := by
    intro key value ne
    simp [Json.get?, Dictionary.find?, ne.symm]
  cases content with
  | null => rfl
  | str s =>
    show (documentText s).get? "@value" = none
    unfold documentText
    cases variableOf? s <;> exact held _ _ (by decide)
  | _ => exact held _ _ (by decide)

/-! ### Writing a document -/

/-- The operations that write a document. -/
inductive DocumentChange where
  | insert
  | update

namespace DocumentChange

def operation : DocumentChange → Operation
  | insert => .insertDocument
  | update => .updateDocument

/-- Writes a document with the given content. Its name is bound to `identifier`, unless that is
null. -/
def call (change : DocumentChange) (content : Json) (identifier : Term) : Call :=
  .fill change.operation [.document content, identifier] (by cases change <;> decide)
    (by cases change <;> rfl)

end DocumentChange

namespace Builder

variable {a b : Builder}

/-- A document is written as it is, before the identifier. -/
theorem slotFields_document (vocabulary : Vocabulary) (change : DocumentChange) (content : Json)
    (identifier : Term) :
    slotFields vocabulary change.operation [.document content, identifier] =
      (optionalArgument "identifier" identifier ((position change.operation "identifier").fill
        vocabulary .node none)).map fun rest => ("document", encodeDocument content) :: rest := by
  have kept : (position change.operation "document").fill vocabulary .value none
      (.document content) = .ok (encodeDocument content) :=
    (Position.fill_eq_ok_iff _).2 (.finished (get?_value_encodeDocument content))
  have first : fillArgument vocabulary change.operation
      (("document", .value), .document content) = .ok ("document", encodeDocument content) := by
    rw [fillArgument, kept]
    rfl
  have arguments : slotArguments change.operation [.document content, identifier] =
      (("document", .value), .document content) ::
        if identifier.isNull then [] else [(("identifier", .node), identifier)] := by
    cases change <;> cases null : identifier.isNull <;>
      simp [slotArguments, preparedArguments, DocumentChange.operation, Operation.slots,
        Operation.optionalField?, null]
  rw [slotFields, arguments, List.mapM_cons, first, optionalArgument]
  by_cases null : identifier.isNull
  · rw [if_pos null, if_pos null]
    rfl
  · rw [if_neg null, if_neg null, List.mapM_cons, fillArgument]
    cases (position change.operation "identifier").fill vocabulary .node none identifier <;> rfl

/-- A name may be anything but a list. -/
theorem exists_slotFields_document_iff (vocabulary : Vocabulary) (change : DocumentChange)
    (content : Json) (identifier : Term) :
    (∃ fields, slotFields vocabulary change.operation [.document content, identifier] =
      .ok fields) ↔ ∀ items, identifier ≠ .list items := by
  rw [slotFields_document]
  simp only [map_eq_ok_iff]
  cases identifier with
  | list items =>
    refine iff_of_false ?_ fun named => named items rfl
    rintro ⟨_, _, found, -⟩
    cases found
  | _ => exact iff_of_true ⟨_, _, rfl, rfl⟩ (by simp)

/-- The field of the document stands in the node that is written, and in what an empty builder sends
then. -/
theorem document_of_run (reachable : Reachable Initial a) {change : DocumentChange} {content : Json}
    {identifier : Term} {after : Builder}
    (ran : a.run (change.call content identifier) = .ok after) :
    after.atCursor.kind? = some change.operation.kind ∧
      after.atCursor.get? "document" = some (encodeDocument content) ∧
      (a.isEmpty = true → after.wire.get? "document" = some (encodeDocument content)) := by
  have performed := ran
  rw [run_eq_perform] at performed
  obtain ⟨e, found, performed⟩ := bind_eq_ok_iff.1 performed
  obtain ⟨fields, made, rfl⟩ := map_eq_ok_iff.1 found
  have plain : PlainFields fields := slotFields_plain _ _ _ fields made
  rw [slotFields_document] at made
  obtain ⟨rest, named, rfl⟩ := map_eq_ok_iff.1 made
  have distinct : ∀ null : Bool, ("document" :: if null then [] else ["identifier"]).Nodup := by
    decide
  have nodup : ((("document", encodeDocument content) :: rest).map Prod.fst).Nodup := by
    rw [List.map_cons, optionalArgument_under "identifier" identifier _ rest named]
    exact distinct identifier.isNull
  obtain ⟨t, legible, cursor⟩ := exists_cursor_of_write reachable rfl found ran
  rw [cursor]
  refine ⟨legible.kind?_raw, legible.get?_raw_written nodup List.mem_cons_self, fun empty => ?_⟩
  have simple : change.operation.isSimple := by cases change <;> rfl
  cases performed
  exact get?_wire_addNode reachable empty simple plain nodup List.mem_cons_self

/-- **A document is written as it is encoded, and no other is written like it.** The operations that
write a document take any content. -/
theorem run_document (reachable : Reachable Initial a) (reachable₁ : Reachable Initial b)
    (change change₁ : DocumentChange) (content content₁ : Json) (identifier identifier₁ : Term) :
    ((∃ after, a.run (change.call content identifier) = .ok after) ↔
      ∀ items, identifier ≠ .list items) ∧
    (∀ after, a.run (change.call content identifier) = .ok after →
      after.atCursor.kind? = some change.operation.kind ∧
      after.atCursor.get? "document" = some (encodeDocument content) ∧
      (a.isEmpty = true → after.wire.get? "document" = some (encodeDocument content))) ∧
    ∀ after after₁, a.run (change.call content identifier) = .ok after →
      b.run (change₁.call content₁ identifier₁) = .ok after₁ →
      (after.atCursor.get? "document" = after₁.atCursor.get? "document" ↔
        content = content₁) := by
  refine ⟨?_, fun after ran => document_of_run reachable ran, fun after after₁ ran ran₁ => ?_⟩
  · rw [← exists_slotFields_document_iff a.vocabulary change content identifier]
    constructor
    · rintro ⟨after, ran⟩
      obtain ⟨fields, made, -⟩ := bind_eq_ok_iff.1 ran
      exact ⟨fields, made⟩
    · rintro ⟨fields, made⟩
      exact ⟨_, bind_eq_ok_iff.2 ⟨fields, made, rfl⟩⟩
  · rw [(document_of_run reachable ran).2.1, (document_of_run reachable₁ ran₁).2.1,
      Option.some_inj, encodeDocument_injective.eq_iff]

/-- Content that looks like a value, inserted, and the same in a list, as an update. -/
theorem run_document_value : ∃ content after after₁,
    content = .obj [("@type", .str "xsd:string"), ("@value", .null)] ∧
    fresh.run (DocumentChange.insert.call content .null) = .ok after ∧
    fresh.run (DocumentChange.update.call (.arr [content]) (.str "doc:a")) = .ok after₁ ∧
    after.wire.get? "document" = some (encodeDocument content) ∧
    after.atCursor.get? "document" ≠ after₁.atCursor.get? "document" := by
  have start : Reachable Initial fresh := .start (.ofVocabulary .standard)
  obtain ⟨content, same⟩ : ∃ content : Json,
    content = .obj [("@type", .str "xsd:string"), ("@value", .null)] := ⟨_, rfl⟩
  obtain ⟨fits, stands, differ⟩ := run_document start start .insert .update content
    (.arr [content]) .null (.str "doc:a")
  obtain ⟨after, ran⟩ := fits.2 nofun
  obtain ⟨after₁, ran₁⟩ : ∃ after₁,
    fresh.run (DocumentChange.update.call (.arr [content]) (.str "doc:a")) = .ok after₁ := ⟨_, rfl⟩
  refine ⟨content, after, after₁, same, ran, ran₁, (stands after ran).2.2 rfl, fun equal => ?_⟩
  have other := (differ after after₁ ran ran₁).1 equal
  rw [same] at other
  cases other

end Builder

end GraphQuery
