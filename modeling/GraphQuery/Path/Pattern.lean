import GraphQuery.Json.Basic
import GraphQuery.Path.Token

/-!
# Path patterns

A path pattern describes the paths between two nodes of a graph: steps along predicates in either
direction, in sequence, in alternation or repeated. A pattern has a wire form, which is JSON, and a
text, which reads back as the pattern up to the grouping of nested sequences.

Key definitions: `Pattern`, `Pattern.toJson`, `Pattern.text`, `Pattern.mapNames`,
`Pattern.WellFormed`, `Pattern.splice`.
-/

namespace GraphQuery

/-- A path pattern. -/
inductive Pattern where
  /-- One step forward along a predicate. -/
  | forward (name : String)
  /-- One step along any predicate. -/
  | anyStep
  /-- One step backward along a predicate. -/
  | backward (name : String)
  | sequence (steps : List Pattern)
  | choice (branches : List Pattern)
  /-- Any number of repetitions. -/
  | star (inner : Pattern)
  /-- At least one repetition. -/
  | plus (inner : Pattern)
  /-- Between `low` and `high` repetitions. -/
  | times (inner : Pattern) (low high : UInt64)

namespace Pattern

instance : Inhabited Pattern := ⟨.anyStep⟩

/-- The sequence of several patterns; a single one stands for itself. -/
def ofSequence : List Pattern → Pattern
  | [step] => step
  | steps => .sequence steps

/-- The alternation of several patterns; a single one stands for itself. -/
def ofChoice : List Pattern → Pattern
  | [branch] => branch
  | branches => .choice branches

mutual

/-- Changes every predicate name. -/
def mapNames (f : String → String) : Pattern → Pattern
  | .forward name => .forward (f name)
  | .anyStep => .anyStep
  | .backward name => .backward (f name)
  | .sequence steps => .sequence (mapNamesAll f steps)
  | .choice branches => .choice (mapNamesAll f branches)
  | .star inner => .star (mapNames f inner)
  | .plus inner => .plus (mapNames f inner)
  | .times inner low high => .times (mapNames f inner) low high

def mapNamesAll (f : String → String) : List Pattern → List Pattern
  | [] => []
  | p :: ps => mapNames f p :: mapNamesAll f ps

end

/-- A repetition count in the wire form. -/
def count (n : UInt64) : Json := .int n.toNat

mutual

/-- The wire form. -/
def toJson : Pattern → Json
  | .forward name => .obj [("@type", .str "PathPredicate"), ("predicate", .str name)]
  | .anyStep => .obj [("@type", .str "PathPredicate")]
  | .backward name => .obj [("@type", .str "InversePathPredicate"), ("predicate", .str name)]
  | .sequence steps => .obj [("@type", .str "PathSequence"), ("sequence", .arr (toJsonAll steps))]
  | .choice branches => .obj [("@type", .str "PathOr"), ("or", .arr (toJsonAll branches))]
  | .star inner => .obj [("@type", .str "PathStar"), ("star", toJson inner)]
  | .plus inner => .obj [("@type", .str "PathPlus"), ("plus", toJson inner)]
  | .times inner low high =>
    .obj [("@type", .str "PathTimes"), ("from", count low), ("times", toJson inner),
      ("to", count high)]

def toJsonAll : List Pattern → List Json
  | [] => []
  | p :: ps => toJson p :: toJsonAll ps

end

/-- Whether a pattern is put between parentheses when a repetition or an alternation holds it. -/
def isCompound : Pattern → Bool
  | .sequence _ | .choice _ => true
  | _ => false

/-- The tokens between parentheses. -/
def parenthesized (tokens : List Token) : List Token :=
  .mark .openParen :: tokens ++ [.mark .closeParen]

/-- The tokens of several patterns with a mark between them. -/
def separated (m : Mark) : List (List Token) → List Token
  | [] => []
  | [part] => part
  | part :: parts => part ++ .mark m :: separated m parts

/-- The tokens of the bounds of a repetition. -/
def bounds (low high : UInt64) : List Token :=
  [.mark .openBrace, .name (toString low.toNat), .mark .comma, .name (toString high.toNat),
    .mark .closeBrace]

mutual

/-- The tokens of a pattern. The steps of a sequence stand side by side without parentheses, even
when a step is a sequence itself. -/
def tokens : Pattern → List Token
  | .forward name => [.name name]
  | .anyStep => [.mark .dot]
  | .backward name => [.mark .less, .name name]
  | .sequence steps => separated .comma (tokensAll steps)
  | .choice branches => separated .bar (groupedAll branches)
  | .star inner => grouped inner ++ [.mark .star]
  | .plus inner => grouped inner ++ [.mark .plus]
  | .times inner low high => grouped inner ++ bounds low high

/-- The tokens of a pattern, between parentheses if it is compound. -/
def grouped : Pattern → List Token
  | .sequence steps => parenthesized (separated .comma (tokensAll steps))
  | .choice branches => parenthesized (separated .bar (groupedAll branches))
  | .forward name => [.name name]
  | .anyStep => [.mark .dot]
  | .backward name => [.mark .less, .name name]
  | .star inner => grouped inner ++ [.mark .star]
  | .plus inner => grouped inner ++ [.mark .plus]
  | .times inner low high => grouped inner ++ bounds low high

def tokensAll : List Pattern → List (List Token)
  | [] => []
  | p :: ps => tokens p :: tokensAll ps

def groupedAll : List Pattern → List (List Token)
  | [] => []
  | p :: ps => grouped p :: groupedAll ps

end

/-- The text of a pattern. -/
def text (p : Pattern) : String := String.join (p.tokens.map Token.text)

/-- A name that a text can hold: not empty, and name characters only. -/
def IsName (name : String) : Prop := name.toList ≠ [] ∧ ∀ c ∈ name.toList, isNameChar c = true

mutual

/-- Sequences and alternations have at least two parts, and names are names. -/
def WellFormed : Pattern → Prop
  | .forward name => IsName name
  | .anyStep => True
  | .backward name => IsName name
  | .sequence steps => 2 ≤ steps.length ∧ WellFormedAll steps
  | .choice branches => 2 ≤ branches.length ∧ WellFormedAll branches
  | .star inner => WellFormed inner
  | .plus inner => WellFormed inner
  | .times inner _ _ => WellFormed inner

def WellFormedAll : List Pattern → Prop
  | [] => True
  | p :: ps => WellFormed p ∧ WellFormedAll ps

end

/-- The steps of a pattern when it is a step of a sequence. -/
def steps : Pattern → List Pattern
  | .sequence steps => steps
  | p => [p]

mutual

/-- Replaces each sequence that is a step of a sequence by its own steps, at every depth. -/
def splice : Pattern → Pattern
  | .sequence steps => .sequence (spliceSteps steps)
  | .choice branches => .choice (spliceAll branches)
  | .star inner => .star (splice inner)
  | .plus inner => .plus (splice inner)
  | .times inner low high => .times (splice inner) low high
  | .forward name => .forward name
  | .anyStep => .anyStep
  | .backward name => .backward name

def spliceSteps : List Pattern → List Pattern
  | [] => []
  | p :: ps => steps (splice p) ++ spliceSteps ps

def spliceAll : List Pattern → List Pattern
  | [] => []
  | p :: ps => splice p :: spliceAll ps

end

mutual

/-- Equality of patterns, by comparing them part by part. -/
def same : Pattern → Pattern → Bool
  | .forward a, .forward b => a = b
  | .anyStep, .anyStep => true
  | .backward a, .backward b => a = b
  | .sequence ps, .sequence qs => sameAll ps qs
  | .choice ps, .choice qs => sameAll ps qs
  | .star p, .star q => same p q
  | .plus p, .plus q => same p q
  | .times p low high, .times q low' high' => same p q && low = low' && high = high'
  | _, _ => false

def sameAll : List Pattern → List Pattern → Bool
  | [], [] => true
  | p :: ps, q :: qs => same p q && sameAll ps qs
  | _, _ => false

end

mutual

/-- Comparing part by part decides equality. -/
theorem same_iff : ∀ p q : Pattern, same p q = true ↔ p = q
  | .forward _, q | .anyStep, q | .backward _, q => by cases q <;> simp [same]
  | .sequence ps, q | .choice ps, q => by cases q <;> simp [same, sameAll_iff ps]
  | .star p, q | .plus p, q => by cases q <;> simp [same, same_iff p]
  | .times p _ _, q => by cases q <;> simp [same, same_iff p, and_assoc]

theorem sameAll_iff : ∀ ps qs : List Pattern, sameAll ps qs = true ↔ ps = qs
  | [], qs => by cases qs <;> simp [sameAll]
  | p :: ps, qs => by cases qs <;> simp [sameAll, same_iff p, sameAll_iff ps]

end

instance : DecidableEq Pattern := fun p q => decidable_of_iff _ (same_iff p q)

/-- Parentheses are put around compound patterns only. -/
theorem grouped_eq (p : Pattern) :
    grouped p = if p.isCompound then parenthesized p.tokens else p.tokens := by
  cases p <;> simp [grouped, tokens, isCompound]

end Pattern

end GraphQuery
