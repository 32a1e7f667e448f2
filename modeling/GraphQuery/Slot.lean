import GraphQuery.Term.Basic
import GraphQuery.Number.Layout
import GraphQuery.Vocabulary

/-!
# Slots

A slot is a position of an operation that takes a value. The kind of the slot decides what a term
means in it: in a node slot every bare string names a node, in a value slot only those do that have
a prefix or are known to the vocabulary, and elsewhere a bare string is a text.

Key definitions: `Slot`, `Filling`, `fill`, `Filling.toJson`, `Term.ContainsNull`.
Key theorems: `fill_json`.
-/

namespace GraphQuery

/-- The kinds of positions. -/
inductive Slot where
  | node
  | value
  | data
  | arithmetic
  deriving DecidableEq

/-- The `@type` of what stands in a slot. -/
def Slot.tag : Slot → String
  | node => "NodeValue"
  | value => "Value"
  | data => "DataValue"
  | arithmetic => "ArithmeticValue"

/-- What a term comes to, before it is tagged with its slot. -/
inductive Filling where
  | variable (name : String)
  | node (name : String)
  /-- A value with its datatype, as a JSON object. -/
  | literal (value : Json)
  | list (items : List Filling)
  /-- A finished part of a query, which is not touched. -/
  | finished (json : Json)

namespace Filling

/-- The datatype of a literal. -/
def datatype? : Filling → Option String
  | .literal value => value.kind?
  | _ => none

mutual

/-- What stands in the slot. The items of a list are tagged like the list. -/
def toJson (slot : Slot) : Filling → Json
  | .variable name => .obj [("@type", .str slot.tag), ("variable", .str name)]
  | .node name => .obj [("@type", .str slot.tag), ("node", .str name)]
  | .literal value => .obj [("@type", .str slot.tag), ("data", value)]
  | .list items => .obj [("@type", .str slot.tag), ("list", .arr (toJsonAll slot items))]
  | .finished json => json

def toJsonAll (slot : Slot) : List Filling → List Json
  | [] => []
  | item :: rest => toJson slot item :: toJsonAll slot rest

end

theorem toJsonAll_eq_map (slot : Slot) :
    ∀ items : List Filling, toJsonAll slot items = items.map (toJson slot)
  | [] => rfl
  | item :: rest => by simp [toJsonAll, toJsonAll_eq_map slot rest]

end Filling

/-- Why a term does not fit a slot. -/
inductive SlotFault where
  /-- There is no value. -/
  | noValue
  /-- A node slot got a list. -/
  | listForNode
  deriving DecidableEq

/-- A floating number as the value of a literal. JSON has no infinities and no NaN, so these are
texts. -/
def floatJson (x : Binary64) : Json :=
  if x.isFinite then .number (.float x) else .str (Layout.plain.text x)

namespace Term

/-- The datatype of a term where none is asked for. -/
def ownDatatype : Term → String
  | .int _ => "xsd:integer"
  | .float _ | .decimal _ => "xsd:decimal"
  | .bool _ => "xsd:boolean"
  | .moment _ => "xsd:dateTime"
  | _ => "xsd:string"

mutual

/-- Whether there is a missing value in a term, at any depth of lists. -/
def ContainsNull : Term → Prop
  | .null => True
  | .list items => ContainsNullAny items
  | _ => False

def ContainsNullAny : List Term → Prop
  | [] => False
  | item :: rest => ContainsNull item ∨ ContainsNullAny rest

end

end Term

/-- A literal of the datatype asked for, or else of the term's own. -/
def fillLiteral (target : Option String) (term : Term) (value : Json) : Filling :=
  .literal (.obj [("@type", .str (target.getD term.ownDatatype)), ("@value", value)])

/-- Whether a bare string names a node in a slot. -/
def namesNode (vocabulary : Vocabulary) (slot : Slot) (s : String) : Bool :=
  match slot with
  | .node => true
  | .value => s.toList.contains ':' || vocabulary.contains s
  | .data | .arithmetic => false

/-- What a bare string comes to. -/
def fillString (vocabulary : Vocabulary) (slot : Slot) (target : Option String) (s : String) :
    Filling :=
  match variableOf? s with
  | some name => .variable name
  | none =>
    if namesNode vocabulary slot s then .node (vocabulary.expand s)
    else fillLiteral target (.str s) (.str s)

/-- What a finished part of a query comes to. An object with an `@value` is a literal, and gets a
datatype if it has none. -/
def fillJson (target : Option String) (json : Json) : Filling :=
  match json with
  | .obj fields =>
    if Dictionary.contains "@value" fields then
      .literal (.obj (Dictionary.insertNew "@type" (.str (target.getD "xsd:string")) fields))
    else .finished json
  | _ => .finished json

mutual

/-- What a term comes to in a slot. A literal made of a bare value gets the datatype `target`, if
one is asked for. -/
def fill (vocabulary : Vocabulary) (slot : Slot) (target : Option String) :
    Term → Except SlotFault Filling
  | .null => .error .noValue
  | .variable name => .ok (.variable name)
  | .str s => .ok (fillString vocabulary slot target s)
  | .text s => .ok (fillLiteral target (.text s) (.str s))
  | .int n => .ok (fillLiteral target (.int n) (.int n))
  | .float x => .ok (fillLiteral target (.float x) (floatJson x))
  | .decimal d => .ok (fillLiteral target (.decimal d) (.str d.text))
  | .bool b => .ok (fillLiteral target (.bool b) (.bool b))
  | .moment s => .ok (fillLiteral target (.moment s) (.str s))
  | .json value => .ok (fillJson target value)
  | .list items =>
    if slot = .node then .error .listForNode
    else (fillAll vocabulary slot target items).map .list

def fillAll (vocabulary : Vocabulary) (slot : Slot) (target : Option String) :
    List Term → Except SlotFault (List Filling)
  | [] => .ok []
  | item :: rest => do
    let first ← fill vocabulary slot target item
    let others ← fillAll vocabulary slot target rest
    return first :: others

end

/-- What a term becomes in a slot. -/
def fillSlot (vocabulary : Vocabulary) (slot : Slot) (target : Option String) (term : Term) :
    Except SlotFault Json :=
  (fill vocabulary slot target term).map (Filling.toJson slot)

/-- A finished part of a query that is no literal stays as it is. -/
theorem fill_json {vocabulary : Vocabulary} {slot : Slot} {target : Option String} {json : Json}
    (h : json.get? "@value" = none) :
    fillSlot vocabulary slot target (.json json) = .ok json := by
  cases json with
  | obj fields =>
    have : Dictionary.contains "@value" fields = false := by
      simpa [Dictionary.contains] using h
    simp [fillSlot, fill, fillJson, this, Filling.toJson, Except.map]
  | _ => rfl

end GraphQuery
