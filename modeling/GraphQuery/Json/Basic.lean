import GraphQuery.Number.Binary64
import GraphQuery.Dictionary

/-!
# JSON values

A JSON value. Numbers are whole or floating, and the two kinds never equal each other. The fields of
an object are a dictionary: in order of the name, each name once. Values that come from outside
keep that order because every reader fills objects through `Json.object`.

Key definitions: `Number`, `Json`, `Json.object`, `Json.get?`, `Json.Ordered`.
Key theorems: `Json.same_iff`.
-/

namespace GraphQuery

/-- A JSON number. -/
inductive Number where
  | int (n : Int)
  | float (x : Binary64)
  deriving DecidableEq

/-- A JSON value. -/
inductive Json where
  | null
  | bool (b : Bool)
  | number (n : Number)
  | str (s : String)
  | arr (items : List Json)
  | obj (fields : List (String × Json))

namespace Json

instance : Inhabited Json := ⟨.null⟩

/-- A whole number. -/
def int (n : Int) : Json := .number (.int n)

/-- The object with the given fields, in any order; the last value of a name counts. -/
def object (fields : List (String × Json)) : Json := .obj (Dictionary.ofList fields)

/-- The fields of an object. -/
def fields? : Json → Option (Dictionary Json)
  | .obj fields => some fields
  | _ => none

/-- The items of an array. -/
def items? : Json → Option (List Json)
  | .arr items => some items
  | _ => none

/-- The text of a string. -/
def text? : Json → Option String
  | .str s => some s
  | _ => none

/-- The field of an object with a given name. -/
def get? (key : String) : Json → Option Json
  | .obj fields => Dictionary.find? key fields
  | _ => none

def isObject : Json → Bool
  | .obj _ => true
  | _ => false

/-- The `@type` of an object, when it is a string. -/
def kindOf (fields : Dictionary Json) : Option String :=
  (Dictionary.find? "@type" fields).bind text?

/-- The `@type` of a value: that of its fields if it is an object. -/
def kind? (json : Json) : Option String := json.fields?.bind kindOf

mutual

/-- Equality of values, by comparing them part by part. -/
def same : Json → Json → Bool
  | .null, .null => true
  | .bool a, .bool b => a = b
  | .number a, .number b => a = b
  | .str a, .str b => a = b
  | .arr as, .arr bs => sameItems as bs
  | .obj as, .obj bs => sameFields as bs
  | _, _ => false

def sameItems : List Json → List Json → Bool
  | [], [] => true
  | a :: as, b :: bs => same a b && sameItems as bs
  | _, _ => false

def sameFields : List (String × Json) → List (String × Json) → Bool
  | [], [] => true
  | (j, a) :: as, (k, b) :: bs => j = k && same a b && sameFields as bs
  | _, _ => false

end

mutual

/-- Comparing part by part decides equality. -/
theorem same_iff : ∀ a b : Json, same a b = true ↔ a = b
  | .null, b | .bool _, b | .number _, b | .str _, b => by cases b <;> simp [same]
  | .arr as, b => by cases b <;> simp [same, sameItems_iff as]
  | .obj as, b => by cases b <;> simp [same, sameFields_iff as]

theorem sameItems_iff : ∀ as bs : List Json, sameItems as bs = true ↔ as = bs
  | [], bs => by cases bs <;> simp [sameItems]
  | a :: as, bs => by cases bs <;> simp [sameItems, same_iff a, sameItems_iff as]

theorem sameFields_iff : ∀ as bs : List (String × Json), sameFields as bs = true ↔ as = bs
  | [], bs => by cases bs <;> simp [sameFields]
  | (j, a) :: as, bs => by
    cases bs <;> simp [sameFields, same_iff a, sameFields_iff as, Prod.ext_iff]

end

instance : DecidableEq Json := fun a b => decidable_of_iff _ (same_iff a b)

mutual

/-- Every object in the value lists its fields in order. -/
def Ordered : Json → Prop
  | .arr items => OrderedItems items
  | .obj fields => Dictionary.Sorted fields ∧ OrderedFields fields
  | _ => True

def OrderedItems : List Json → Prop
  | [] => True
  | item :: rest => Ordered item ∧ OrderedItems rest

def OrderedFields : List (String × Json) → Prop
  | [] => True
  | (_, value) :: rest => Ordered value ∧ OrderedFields rest

end

theorem orderedItems_iff : ∀ items : List Json, OrderedItems items ↔ ∀ item ∈ items, Ordered item
  | [] => by simp [OrderedItems]
  | item :: rest => by simp [OrderedItems, orderedItems_iff rest]

theorem orderedFields_iff : ∀ fields : List (String × Json),
    OrderedFields fields ↔ ∀ field ∈ fields, Ordered field.2
  | [] => by simp [OrderedFields]
  | (_, value) :: rest => by simp [OrderedFields, orderedFields_iff rest]

mutual

instance decidableOrdered : ∀ json : Json, Decidable json.Ordered
  | .arr items => decidableOrderedItems items
  | .obj fields =>
    have := decidableOrderedFields fields
    inferInstanceAs (Decidable (Dictionary.Sorted fields ∧ OrderedFields fields))
  | .null | .bool _ | .number _ | .str _ => .isTrue trivial

instance decidableOrderedItems : ∀ items : List Json, Decidable (OrderedItems items)
  | [] => .isTrue trivial
  | item :: rest =>
    have := decidableOrdered item
    have := decidableOrderedItems rest
    inferInstanceAs (Decidable (item.Ordered ∧ OrderedItems rest))

instance decidableOrderedFields : ∀ fields : List (String × Json), Decidable (OrderedFields fields)
  | [] => .isTrue trivial
  | (_, value) :: rest =>
    have := decidableOrdered value
    have := decidableOrderedFields rest
    inferInstanceAs (Decidable (value.Ordered ∧ OrderedFields rest))

end

@[simp] theorem get?_obj (key : String) (fields : List (String × Json)) :
    get? key (.obj fields) = Dictionary.find? key fields := rfl

end Json

end GraphQuery
