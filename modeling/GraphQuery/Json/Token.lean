import GraphQuery.Json.Numeral

/-!
# The tokens of JSON text

JSON text is cut into tokens by a machine that reads one character at a time. It refuses characters
that cannot stand where they are, and raw control characters inside strings. Two kinds of tokens are
well written and still stand for nothing: a string with half of a surrogate pair, and a number too
large to be one. They are kept, for a reader that does not care what they are.

Key definitions: `Json.Token`, `Json.Mode`, `Json.Mode.step`, `Json.tokens?`.
-/

namespace GraphQuery.Json

/-- A token of JSON text. -/
inductive Token where
  | openArray
  | closeArray
  | openObject
  | closeObject
  | colon
  | comma
  /-- A string, which is a value or the name of a field. -/
  | text (s : Option String)
  /-- Any other value without parts. -/
  | scalar (json : Option Json)

/-- What the machine is in the middle of. Characters seen are held in reverse; inside a string there
are none once half of a surrogate pair was seen. -/
inductive Mode where
  | between
  | text (seen : Option (List Char))
  | escape (seen : Option (List Char))
  /-- Inside `\uXXXX`: the high half before it, if any, the digits still owed and their value. -/
  | code (seen : Option (List Char)) (high : Option Nat) (owed : Nat) (value : Nat)
  /-- After a high half: the backslash of the low half is due. -/
  | lowEscape (seen : Option (List Char)) (high : Nat)
  /-- After a high half and a backslash: the `u` is due. -/
  | lowCode (seen : Option (List Char)) (high : Nat)
  | number (seen : List Char)
  | word (seen : List Char)

/-- The value of a hexadecimal digit. -/
def hexValue? (c : Char) : Option Nat :=
  if c.isDigit then some (c.toNat - '0'.toNat)
  else if 'a' ≤ c ∧ c ≤ 'f' then some (c.toNat - 'a'.toNat + 10)
  else if 'A' ≤ c ∧ c ≤ 'F' then some (c.toNat - 'A'.toNat + 10)
  else none

/-- The character of a one-letter escape. -/
def escaped? : Char → Option Char
  | '"' => some '"'
  | '\\' => some '\\'
  | '/' => some '/'
  | 'b' => some '\x08'
  | 'f' => some '\x0c'
  | 'n' => some '\n'
  | 'r' => some '\r'
  | 't' => some '\t'
  | _ => none

/-- High halves of surrogate pairs. -/
def isHighHalf (value : Nat) : Bool := 0xD800 ≤ value && value < 0xDC00

/-- Low halves of surrogate pairs. -/
def isLowHalf (value : Nat) : Bool := 0xDC00 ≤ value && value < 0xE000

/-- The token of a character that is a token by itself. -/
def mark? : Char → Option Token
  | '[' => some .openArray
  | ']' => some .closeArray
  | '\x7b' => some .openObject
  | '\x7d' => some .closeObject
  | ':' => some .colon
  | ',' => some .comma
  | _ => none

def isBlankChar (c : Char) : Bool := c = ' ' || c = '\t' || c = '\n' || c = '\r'

/-- The characters that numerals are made of. -/
def isNumeralChar (c : Char) : Bool :=
  c.isDigit || c = '-' || c = '+' || c = '.' || c = 'e' || c = 'E'

/-- The token of a finished numeral. -/
def numeralToken? (seen : List Char) : Option Token :=
  (Numeral.ofChars? seen.reverse).map fun n => .scalar (n.number?.map .number)

/-- The token of a finished word. -/
def wordToken? (seen : List Char) : Option Token :=
  match String.ofList seen.reverse with
  | "null" => some (.scalar (some .null))
  | "true" => some (.scalar (some (.bool true)))
  | "false" => some (.scalar (some (.bool false)))
  | _ => none

namespace Mode

/-- The mode after the last digit of `\uXXXX`. A high half must be followed by a low half, and a low
half stands nowhere else. -/
def afterCode (seen : Option (List Char)) (high : Option Nat) (value : Nat) : Mode :=
  match high with
  | none =>
    if isHighHalf value then .lowEscape seen value
    else if isLowHalf value then .text none
    else .text (seen.map (Char.ofNat value :: ·))
  | some high =>
    if isLowHalf value then
      let c := Char.ofNat (0x10000 + (high - 0xD800) * 0x400 + (value - 0xDC00))
      .text (seen.map (c :: ·))
    else .text none

/-- A character between tokens: it is a token, or blank, or starts a longer token. -/
def start (c : Char) : Option (List Token × Mode) :=
  match mark? c with
  | some token => some ([token], .between)
  | none =>
    if isBlankChar c then some ([], .between)
    else if c = '"' then some ([], .text (some []))
    else if c.isDigit || c = '-' then some ([], .number [c])
    else if c.isAlpha then some ([], .word [c])
    else none

/-- A character of a string. -/
def stepText (seen : Option (List Char)) (c : Char) : Option (List Token × Mode) :=
  if c = '"' then some ([.text (seen.map fun seen => String.ofList seen.reverse)], .between)
  else if c = '\\' then some ([], .escape seen)
  else if c.toNat < 0x20 then none
  else some ([], .text (seen.map (c :: ·)))

/-- A character after a backslash. -/
def stepEscape (seen : Option (List Char)) (c : Char) : Option (List Token × Mode) :=
  if c = 'u' then some ([], .code seen none 4 0)
  else (escaped? c).map fun e => ([], .text (seen.map (e :: ·)))

/-- A digit of `\uXXXX`. -/
def stepCode (seen : Option (List Char)) (high : Option Nat) (owed value : Nat) (c : Char) :
    Option (List Token × Mode) :=
  (hexValue? c).map fun digit =>
    let value := value * 16 + digit
    ([], if owed ≤ 1 then afterCode seen high value else .code seen high (owed - 1) value)

/-- The character after a token that ends where another begins. -/
def stepAfter (token : Option Token) (c : Char) : Option (List Token × Mode) := do
  let token ← token
  let (more, mode) ← start c
  return (token :: more, mode)

/-- One character: the tokens it completes and the mode it leads to. -/
def step (c : Char) : Mode → Option (List Token × Mode)
  | .between => start c
  | .text seen => stepText seen c
  | .escape seen => stepEscape seen c
  | .code seen high owed value => stepCode seen high owed value c
  | .lowEscape seen high => if c = '\\' then some ([], .lowCode seen high) else stepText none c
  | .lowCode seen high =>
    if c = 'u' then some ([], .code seen (some high) 4 0) else stepEscape none c
  | .number seen =>
    if isNumeralChar c then some ([], .number (c :: seen)) else stepAfter (numeralToken? seen) c
  | .word seen =>
    if c.isAlpha then some ([], .word (c :: seen)) else stepAfter (wordToken? seen) c

/-- The tokens completed by the end of the text. -/
def finish : Mode → Option (List Token)
  | .between => some []
  | .number seen => (numeralToken? seen).map ([·])
  | .word seen => (wordToken? seen).map ([·])
  | _ => none

end Mode

/-- The tokens of the rest of a text, after `found` in reverse. -/
def tokensFrom (found : List Token) (mode : Mode) : List Char → Option (List Token)
  | [] => mode.finish.map fun last => found.reverse ++ last
  | c :: rest => do
    let (more, next) ← mode.step c
    tokensFrom (more.reverse ++ found) next rest

/-- The tokens of a text, unless a character in it has no place. -/
def tokens? (text : String) : Option (List Token) := tokensFrom [] .between text.toList

end GraphQuery.Json
