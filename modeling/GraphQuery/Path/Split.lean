import GraphQuery.Path.Token

/-!
# Splitting tokens outside of brackets

A list of tokens is split at each separator that stands outside of all parentheses and braces. The
two kinds of brackets are counted apart, and a closing bracket needs an open one of its kind.

Key definitions: `Depth`, `Depth.step`, `splitFrom`, `splitTokens`.
Key theorems: `intercalate_splitFrom`.
-/

namespace GraphQuery

/-- How many parentheses and how many braces are open. -/
structure Depth where
  parens : Nat
  braces : Nat
  deriving DecidableEq

namespace Depth

/-- Outside of all brackets. -/
def outside : Depth := ⟨0, 0⟩

/-- The depth after one more token, unless it closes what is not open. -/
def step (depth : Depth) : Token → Option Depth
  | .mark .openParen => some { depth with parens := depth.parens + 1 }
  | .mark .closeParen =>
    if depth.parens = 0 then none else some { depth with parens := depth.parens - 1 }
  | .mark .openBrace => some { depth with braces := depth.braces + 1 }
  | .mark .closeBrace =>
    if depth.braces = 0 then none else some { depth with braces := depth.braces - 1 }
  | _ => some depth

/-- The depth after several tokens. -/
def after (depth : Depth) : List Token → Option Depth
  | [] => some depth
  | token :: rest => (depth.step token).bind fun next => next.after rest

end Depth

/-- Puts a token in front of the first part. -/
def extendFirst (token : Token) : List (List Token) → List (List Token)
  | [] => [[token]]
  | part :: parts => (token :: part) :: parts

/-- The parts of the rest of a token list, from a given depth on. -/
def splitFrom (separator : Token) (depth : Depth) : List Token → Option (List (List Token))
  | [] => some [[]]
  | token :: rest =>
    if depth = .outside ∧ token = separator then
      (splitFrom separator depth rest).map ([] :: ·)
    else
      (depth.step token).bind fun next =>
        (splitFrom separator next rest).map (extendFirst token)

/-- The parts of a token list between the separators outside of brackets. A bracket that closes
nothing leaves no parts; an empty list is one empty part. -/
def splitTokens (separator : Token) (tokens : List Token) : Option (List (List Token)) :=
  splitFrom separator .outside tokens

theorem splitFrom_ne_nil {separator : Token} {depth : Depth} {tokens : List Token}
    {parts : List (List Token)} (h : splitFrom separator depth tokens = some parts) :
    parts ≠ [] := by
  cases tokens with
  | nil => cases h; simp
  | cons token rest =>
    unfold splitFrom at h
    split at h
    · obtain ⟨_, _, rfl⟩ := Option.map_eq_some_iff.1 h
      simp
    · obtain ⟨_, _, h⟩ := Option.bind_eq_some_iff.1 h
      obtain ⟨parts, _, rfl⟩ := Option.map_eq_some_iff.1 h
      cases parts <;> simp [extendFirst]

theorem intercalate_extendFirst (separator : List Token) (token : Token) :
    ∀ {parts : List (List Token)}, parts ≠ [] →
      separator.intercalate (extendFirst token parts) = token :: separator.intercalate parts
  | [_], _ => by simp [extendFirst, List.intercalate]
  | _ :: _ :: _, _ => by simp [extendFirst, List.intercalate]

/-- The parts with the separator between them are the tokens. -/
theorem intercalate_splitFrom {separator : Token} {depth : Depth} {tokens : List Token}
    {parts : List (List Token)} (h : splitFrom separator depth tokens = some parts) :
    [separator].intercalate parts = tokens := by
  induction tokens generalizing depth parts with
  | nil => cases h; rfl
  | cons token rest ih =>
    unfold splitFrom at h
    split at h
    · next here =>
      obtain ⟨others, found, rfl⟩ := Option.map_eq_some_iff.1 h
      have ne := splitFrom_ne_nil found
      cases others with
      | nil => contradiction
      | cons part parts => simpa [List.intercalate, here.2] using ih found
    · obtain ⟨next, _, h⟩ := Option.bind_eq_some_iff.1 h
      obtain ⟨others, found, rfl⟩ := Option.map_eq_some_iff.1 h
      rw [intercalate_extendFirst _ _ (splitFrom_ne_nil found), ih found]

end GraphQuery
