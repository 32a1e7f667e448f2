import GraphQuery.Json.Basic
import GraphQuery.Number.Layout

/-!
# The text of a JSON value

Compact text has no blanks; spread text puts every item and field on a line of its own, indented by
two blanks a level. In strings only the quote, the backslash and the characters below U+0020 are
escaped.

Key definitions: `Json.compact`, `Json.spread`.
-/

namespace GraphQuery

/-- The text of a number: a floating one always shows that it is one. -/
def Number.text : Number → String
  | .int n => toString n
  | .float x => Layout.json.text x

namespace Json

/-- The digit of a value below sixteen. -/
def hexDigit (n : Nat) : Char := Nat.digitChar n

/-- How one character is written inside a JSON string. -/
def stringChar (c : Char) : List Char :=
  if c = '"' then ['\\', '"']
  else if c = '\\' then ['\\', '\\']
  else if c = '\x08' then ['\\', 'b']
  else if c = '\x0c' then ['\\', 'f']
  else if c = '\n' then ['\\', 'n']
  else if c = '\r' then ['\\', 'r']
  else if c = '\t' then ['\\', 't']
  else if c.toNat < 0x20 then
    ['\\', 'u', '0', '0', hexDigit (c.toNat / 16), hexDigit (c.toNat % 16)]
  else [c]

/-- A text as a JSON string. -/
def stringText (s : String) : String :=
  String.ofList ('"' :: s.toList.flatMap stringChar ++ ['"'])

mutual

/-- The text without blanks. -/
def compact : Json → String
  | .null => "null"
  | .bool b => if b then "true" else "false"
  | .number n => n.text
  | .str s => stringText s
  | .arr items => "[" ++ ",".intercalate (compactItems items) ++ "]"
  | .obj fields => "\x7b" ++ ",".intercalate (compactFields fields) ++ "\x7d"

def compactItems : List Json → List String
  | [] => []
  | item :: rest => compact item :: compactItems rest

def compactFields : List (String × Json) → List String
  | [] => []
  | (key, value) :: rest => (stringText key ++ ":" ++ compact value) :: compactFields rest

end

/-- A line break and the blanks that start a line of the given level. -/
def lineStart (level : Nat) : String :=
  String.ofList ('\n' :: List.replicate (2 * level) ' ')

/-- Parts on lines of their own between two brackets. -/
def bracketLines (openBracket closeBracket : String) (level : Nat) (parts : List String) : String :=
  if parts.isEmpty then openBracket ++ closeBracket
  else
    openBracket ++ lineStart (level + 1) ++ ("," ++ lineStart (level + 1)).intercalate parts ++
      lineStart level ++ closeBracket

mutual

/-- The text over several lines, inside a given level. -/
def spreadAt (level : Nat) : Json → String
  | .arr items => bracketLines "[" "]" level (spreadItems (level + 1) items)
  | .obj fields => bracketLines "\x7b" "\x7d" level (spreadFields (level + 1) fields)
  | .null => "null"
  | .bool b => if b then "true" else "false"
  | .number n => n.text
  | .str s => stringText s

def spreadItems (level : Nat) : List Json → List String
  | [] => []
  | item :: rest => spreadAt level item :: spreadItems level rest

def spreadFields (level : Nat) : List (String × Json) → List String
  | [] => []
  | (key, value) :: rest =>
    (stringText key ++ ": " ++ spreadAt level value) :: spreadFields level rest

end

/-- The text over several lines. -/
def spread (json : Json) : String := spreadAt 0 json

end Json

end GraphQuery
