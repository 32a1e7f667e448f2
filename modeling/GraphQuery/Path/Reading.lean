import GraphQuery.Path.Pattern
import GraphQuery.Path.Split

/-!
# Reading a path pattern

A pattern is read on three levels. A sequence is alternations between commas, an alternation is
phrases between bars, and a phrase is run from left to right over the pattern read so far: a step
replaces it, a repetition wraps it. So `a.b` is the predicate `b`, and steps are chained with commas
only. Inside parentheses there is a sequence again; how often that can happen is bounded by the
number of tokens.

Key definitions: `PathFault`, `PathError`, `phraseFrom`, `sequenceWith`, `Pattern.ofSequenceTokens`,
`Pattern.compile`.
-/

namespace GraphQuery

/-- What is wrong with a path pattern. -/
inductive PathFault where
  /-- A bracket closes what is not open. -/
  | unbalanced
  /-- An opening parenthesis is never closed. -/
  | unclosedParen
  /-- A step backward has no predicate. -/
  | noPredicate
  /-- There is nothing before a repetition. -/
  | nothingToRepeat (m : Mark)
  /-- The bounds of a repetition are not separated by a comma. -/
  | noBoundsComma
  /-- The bounds of a repetition are not closed. -/
  | unclosedBrace
  /-- A bound is no number. -/
  | noCount (found : Option Token)
  /-- There is no step where one must be. -/
  | noSteps
  /-- The whole text has no token. -/
  | noTokens
  deriving DecidableEq

/-- The message of a fault. -/
def PathFault.message : PathFault → String
  | unbalanced => "Unbalanced parenthesis"
  | unclosedParen => "no matching parenthesis in path pattern"
  | noPredicate => "expected predicate after '<'"
  | nothingToRepeat m => "'" ++ m.text ++ "' must follow a path expression"
  | noBoundsComma => "incorrect separation in braced path pattern"
  | unclosedBrace => "no matching brace in path pattern"
  | noCount found =>
    "expected a repetition count, found '" ++ (found.map Token.text).getD "end of pattern" ++ "'"
  | noSteps => "empty path expression"
  | noTokens => "Pattern error - could not be parsed"

/-- A fault, and the text of the pattern that has it. -/
structure PathError where
  pattern : String
  fault : PathFault
  deriving DecidableEq

/-- The error of a fault in a list of tokens. -/
def PathError.ofTokens (tokens : List Token) (fault : PathFault) : PathError :=
  ⟨Token.joined tokens, fault⟩

/-- The number a text writes in decimal digits, after at most one plus sign, if it fits 64 bits. -/
def readCount? (text : String) : Option UInt64 :=
  let digits := match text.toList with
    | '+' :: rest => rest
    | cs => cs
  if digits.isEmpty || !digits.all Char.isDigit then none
  else
    let value := digits.foldl (fun value c => value * 10 + (c.toNat - '0'.toNat)) 0
    if value < UInt64.size then some (UInt64.ofNat value) else none

/-- The repetition count that a token is. Marks are no counts. -/
def Token.count? : Token → Option UInt64
  | .name text => readCount? text
  | .mark _ => none

/-- The tokens up to the parenthesis that closes the group, and those after it. `depth` counts the
parentheses open inside the group. -/
def splitGroup (depth : Nat) : List Token → Option (List Token × List Token)
  | [] => none
  | .mark .closeParen :: rest =>
    match depth with
    | 0 => some ([], rest)
    | depth + 1 =>
      (splitGroup depth rest).map fun (inner, after) => (.mark .closeParen :: inner, after)
  | .mark .openParen :: rest =>
    (splitGroup (depth + 1) rest).map fun (inner, after) => (.mark .openParen :: inner, after)
  | token :: rest => (splitGroup depth rest).map fun (inner, after) => (token :: inner, after)

/-- A group and what follows it are all the tokens but the closing parenthesis. -/
theorem splitGroup_eq {depth : Nat} {tokens inner after : List Token}
    (h : splitGroup depth tokens = some (inner, after)) :
    tokens = inner ++ .mark .closeParen :: after := by
  fun_induction splitGroup depth tokens generalizing inner after with
  | case1 => cases h
  | case2 => cases h; rfl
  | case3 rest depth ih | case4 depth rest ih | case5 depth token rest _ _ ih =>
    obtain ⟨⟨inner', after'⟩, found, same⟩ := Option.map_eq_some_iff.1 h
    cases same
    simp [ih found]

/-- What follows a group is shorter than what the group begins. -/
theorem length_lt_of_splitGroup {depth : Nat} {tokens inner after : List Token}
    (h : splitGroup depth tokens = some (inner, after)) : after.length < tokens.length := by
  rw [splitGroup_eq h, List.length_append, List.length_cons]
  omega

/-- The repetition count that a token must be. -/
def readBound (token : Option Token) : Except PathFault UInt64 :=
  (token.bind Token.count?).elim (.error (.noCount token)) .ok

/-- The bounds of a repetition, which are the four tokens after its opening brace. -/
def readBounds (tokens : List Token) : Except PathFault (UInt64 × UInt64) := do
  let low ← readBound tokens[0]?
  if tokens[1]? ≠ some (.mark .comma) then throw .noBoundsComma
  let high ← readBound tokens[2]?
  if tokens[3]? ≠ some (.mark .closeBrace) then throw .unclosedBrace
  return (low, high)

/-- The pattern before a repetition mark. -/
def repeated (m : Mark) (read : Option Pattern) : Except PathFault Pattern :=
  read.elim (.error (.nothingToRepeat m)) .ok

/-- The pattern of the rest of a phrase, when `read` is the pattern of its tokens so far. A group
is read by `group`, and `fail` makes errors of faults. A closing parenthesis ends the phrase. -/
def phraseFrom (group : List Token → Except PathError Pattern) (fail : PathFault → PathError)
    (read : Option Pattern) (tokens : List Token) : Except PathError Pattern :=
  match tokens with
  | [] => read.elim (.error (fail .noSteps)) .ok
  | .name text :: rest => phraseFrom group fail (some (.forward text)) rest
  | .mark .dot :: rest => phraseFrom group fail (some .anyStep) rest
  | .mark .less :: .name text :: rest => phraseFrom group fail (some (.backward text)) rest
  | .mark .less :: _ => .error (fail .noPredicate)
  | .mark .greater :: rest => phraseFrom group fail read rest
  | .mark .star :: rest => do
    let inner ← (repeated .star read).mapError fail
    phraseFrom group fail (some (.star inner)) rest
  | .mark .plus :: rest => do
    let inner ← (repeated .plus read).mapError fail
    phraseFrom group fail (some (.plus inner)) rest
  | .mark .openBrace :: rest => do
    let inner ← (repeated .openBrace read).mapError fail
    let (low, high) ← (readBounds rest).mapError fail
    phraseFrom group fail (some (.times inner low high)) (rest.drop 4)
  | .mark .openParen :: rest =>
    match _h : splitGroup 0 rest with
    | none => .error (fail .unclosedParen)
    | some (inner, after) => do
      let pattern ← group inner
      phraseFrom group fail (some pattern) after
  | .mark .closeParen :: _ => read.elim (.error (fail .noSteps)) .ok
  | .mark .bar :: rest => phraseFrom group fail (some (.forward Mark.bar.text)) rest
  | .mark .comma :: rest => phraseFrom group fail (some (.forward Mark.comma.text)) rest
  | .mark .closeBrace :: rest => phraseFrom group fail (some (.forward Mark.closeBrace.text)) rest
termination_by tokens.length
decreasing_by
  all_goals first
    | decreasing_tactic
    | exact Nat.lt_succ_of_lt (length_lt_of_splitGroup _h)

/-- The pattern of a phrase. -/
def phraseWith (group : List Token → Except PathError Pattern) (tokens : List Token) :
    Except PathError Pattern :=
  phraseFrom group (PathError.ofTokens tokens) none tokens

/-- The parts of a token list, or the error of its brackets. -/
def partsOf (separator : Token) (tokens : List Token) : Except PathError (List (List Token)) :=
  (splitTokens separator tokens).elim (.error (.ofTokens tokens .unbalanced)) .ok

/-- The pattern of an alternation. -/
def choiceWith (group : List Token → Except PathError Pattern) (tokens : List Token) :
    Except PathError Pattern := do
  let parts ← partsOf (.mark .bar) tokens
  let branches ← parts.mapM (phraseWith group)
  return .ofChoice branches

/-- The pattern of a sequence. -/
def sequenceWith (group : List Token → Except PathError Pattern) (tokens : List Token) :
    Except PathError Pattern := do
  let parts ← partsOf (.mark .comma) tokens
  let steps ← parts.mapM (choiceWith group)
  return .ofSequence steps

/-- The pattern of a sequence with groups inside each other up to a given depth. -/
def sequenceTo : Nat → List Token → Except PathError Pattern
  | 0, tokens => .error (.ofTokens tokens .unclosedParen)
  | depth + 1, tokens => sequenceWith (sequenceTo depth) tokens

namespace Pattern

/-- Reads tokens as a sequence. A group has fewer tokens than what it stands in, so the number of
tokens bounds the depth of groups. -/
def ofSequenceTokens (tokens : List Token) : Except PathError Pattern :=
  sequenceTo (tokens.length + 1) tokens

/-- Reads tokens as an alternation. -/
def ofChoiceTokens (tokens : List Token) : Except PathError Pattern :=
  choiceWith (sequenceTo (tokens.length + 1)) tokens

/-- Reads tokens as a phrase. -/
def ofPhraseTokens (tokens : List Token) : Except PathError Pattern :=
  phraseWith (sequenceTo (tokens.length + 1)) tokens

/-- Reads a text as a pattern. Errors show the whole text. -/
def compile (text : String) : Except PathError Pattern :=
  let tokens := tokensOf text
  if tokens.isEmpty then .error ⟨text, .noTokens⟩
  else (ofSequenceTokens tokens).mapError fun e => { e with pattern := text }

end Pattern

end GraphQuery
