import GraphQuery.Json.Basic

/-!
# Terms

A term is an argument of a query operation before it is known which position it goes to. A plain
string may name a node, a variable or a text; the other kinds say what they are. An exact decimal
keeps its scale: the digits after the point are shown even when they are zeros.

Key definitions: `Decimal`, `Decimal.text`, `padLeft`, `Term`, `stripVariable`,
`Term.variableName?`, `Term.literal`.
Key theorems: `variableOf?_eq_some_iff`.
-/

namespace GraphQuery

/-! ### Exact decimals -/

/-- The decimal `mantissa * 10 ^ -scale`. -/
structure Decimal where
  mantissa : Int
  scale : Nat
  deriving DecidableEq

/-- The digits of a number, with zeros in front up to a width. -/
def padLeft (width n : Nat) : List Char :=
  let digits := Nat.toDigits 10 n
  List.replicate (width - digits.length) '0' ++ digits

/-- The text of a decimal: at least one digit before the point, as many after it as its scale. -/
def Decimal.text (d : Decimal) : String :=
  let digits := padLeft (d.scale + 1) d.mantissa.natAbs
  let whole := digits.length - d.scale
  let sign := if d.mantissa < 0 then ['-'] else []
  let fraction := if d.scale = 0 then [] else '.' :: digits.drop whole
  String.ofList (sign ++ digits.take whole ++ fraction)

theorem le_length_padLeft (width n : Nat) : width ≤ (padLeft width n).length := by
  simp [padLeft]
  omega

/-! ### Terms -/

/-- An argument of an operation. -/
inductive Term where
  /-- A bare string. The prefix `v:` makes it a variable. -/
  | str (s : String)
  /-- A text, whatever it looks like. -/
  | text (s : String)
  | int (n : Int)
  | float (x : Binary64)
  | decimal (d : Decimal)
  | bool (b : Bool)
  /-- A date and time, already written. -/
  | moment (s : String)
  | variable (name : String)
  /-- A finished part of a query. -/
  | json (json : Json)
  | list (items : List Term)
  | null

/-- The name after the prefix of variables, if a string has it. -/
def variableOf? (s : String) : Option String :=
  match s.toList with
  | 'v' :: ':' :: name => some (String.ofList name)
  | _ => none

/-- The name of a variable written with or without its prefix. One prefix is taken off. -/
def stripVariable (s : String) : String := (variableOf? s).getD s

/-- A variable as a bare string. -/
def variableText (name : String) : String := "v:" ++ name

namespace Term

instance : Inhabited Term := ⟨.null⟩

/-- The variable of a given name. -/
def ofVariable (name : String) : Term := .variable (stripVariable name)

def isNull : Term → Bool
  | .null => true
  | _ => false

/-- The name of the variable that a term is. -/
def variableName? : Term → Option String
  | .variable name => some name
  | .str s => variableOf? s
  | _ => none

/-- The datatype a literal gets: a type without a prefix is one of XML Schema. -/
def datatypeName (datatype : String) : String :=
  if datatype.toList.contains ':' then datatype else "xsd:" ++ datatype

/-- A value with its datatype in JSON. -/
def typedValue (datatype : String) (value : Json) : Json :=
  .obj [("@type", .str datatype), ("@value", value)]

/-- A value of a given datatype. -/
def literal (value : Json) (datatype : String) : Term :=
  .json (typedValue (datatypeName datatype) value)

/-- A node, given by its name and never looked up in a vocabulary. -/
def node (name : String) : Term :=
  .json (.obj [("@type", .str "NodeValue"), ("node", .str name)])

end Term

@[simp] theorem variableOf?_variableText (name : String) :
    variableOf? (variableText name) = some name := by
  simp [variableOf?, variableText]

/-- A string names a variable exactly when it is one written with its prefix. -/
theorem variableOf?_eq_some_iff {s name : String} :
    variableOf? s = some name ↔ s = variableText name := by
  constructor
  · intro h
    unfold variableOf? at h
    split at h
    · next chars found =>
      cases h
      apply String.toList_inj.1
      simp [variableText, found]
    · cases h
  · rintro rfl
    exact variableOf?_variableText name

end GraphQuery
