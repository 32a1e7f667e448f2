import GraphQuery.Error

/-!
# Arguments

An argument goes to a position: a field of an operation. What may stand there is checked when the
argument is given, and an error names the position. Descriptors such as a graph name must not be
blank, that is, hold white space only, or nothing.

Key definitions: `isBlank`, `Position`, `Position.fill`, `Position.reference`,
`Position.variableName`, `Position.nonBlank`.
-/

namespace GraphQuery

/-! ### Blank text -/

/-- The white space characters, as code point ranges with both ends included. -/
def spaceRanges : List (Nat × Nat) := [
  (0x9, 0xD), (0x20, 0x20), (0x85, 0x85), (0xA0, 0xA0), (0x1680, 0x1680), (0x2000, 0x200A),
  (0x2028, 0x2029), (0x202F, 0x202F), (0x205F, 0x205F), (0x3000, 0x3000)]

/-- Tells white space from all other characters. -/
def isSpace (c : Char) : Bool :=
  spaceRanges.any fun range => range.1 ≤ c.toNat && c.toNat ≤ range.2

/-- Nothing but white space. -/
def isBlank (text : String) : Bool := text.toList.all isSpace

@[simp] theorem isBlank_empty : isBlank "" = true := by simp [isBlank]

/-- A text is blank exactly when each of its characters is white space. -/
theorem isBlank_iff {text : String} :
    isBlank text = true ↔ ∀ c ∈ text.toList, isSpace c = true := by
  simp [isBlank]

/-- The white space of ASCII counts. -/
theorem isSpace_of_isWhitespace {c : Char} (h : c.isWhitespace = true) : isSpace c = true := by
  simp only [Char.isWhitespace, Bool.or_eq_true, decide_eq_true_eq] at h
  rcases h with ((rfl | rfl) | rfl) | rfl <;> decide

/-! ### Positions -/

/-- A field of an operation. -/
structure Position where
  operation : String
  field : String
  deriving DecidableEq

namespace Position

/-- The error of a fault in this position. -/
def error (p : Position) (fault : ParameterFault) : Error := .parameter p.operation p.field fault

/-- What a term comes to in a slot here. -/
def filling (p : Position) (vocabulary : Vocabulary) (slot : Slot) (target : Option String)
    (term : Term) : Except Error Filling :=
  (GraphQuery.fill vocabulary slot target term).mapError fun fault => p.error (.slot fault)

/-- What a term becomes in a slot here. -/
def fill (p : Position) (vocabulary : Vocabulary) (slot : Slot) (target : Option String)
    (term : Term) : Except Error Json :=
  (p.filling vocabulary slot target term).map (Filling.toJson slot)

/-- What a term becomes in a node slot that takes only names, variables and finished parts. `label`
is what the message calls the position. -/
def reference (p : Position) (vocabulary : Vocabulary) (label : String) (term : Term) :
    Except Error Json :=
  match term with
  | .str _ | .variable _ | .json (.obj _) => p.fill vocabulary .node none term
  | _ => .error (p.error (.notIdentifier label))

/-- The name of a variable, written in any way. -/
def variableName (p : Position) (term : Term) : Except Error String :=
  match term with
  | .variable name => .ok name
  | .str s => .ok (stripVariable s)
  | other => .error (p.error (.notVariable other))

/-- The names of several variables. -/
def variableNames (p : Position) (terms : List Term) : Except Error Json :=
  (terms.mapM p.variableName).map fun names => .arr (names.map .str)

/-- A text that is not blank. -/
def nonBlank (p : Position) (text : String) : Except Error String :=
  if isBlank text then .error (p.error .blank) else .ok text

end Position

end GraphQuery
