import GraphQuery.Text.Word

/-!
# The tokens of a path pattern

A path pattern is cut into names and marks. A name is a longest run of word characters and the
characters `'`, `@`, `:` and `%`; a mark is one of eleven punctuation characters. Everything else
separates tokens and is dropped, so every text has tokens.

Key definitions: `Mark`, `Token`, `Token.scan`, `tokensOf`.
Key theorems: `Token.ofText_text`, `Token.text_ofText`.
-/

namespace GraphQuery

/-- A punctuation character of path patterns. -/
inductive Mark where
  | dot
  | bar
  | plus
  | star
  | openBrace
  | closeBrace
  | comma
  | openParen
  | closeParen
  | less
  | greater
  deriving DecidableEq

namespace Mark

/-- All marks. -/
def all : List Mark :=
  [dot, bar, plus, star, openBrace, closeBrace, comma, openParen, closeParen, less, greater]

def char : Mark → Char
  | dot => '.'
  | bar => '|'
  | plus => '+'
  | star => '*'
  | openBrace => '\x7b'
  | closeBrace => '\x7d'
  | comma => ','
  | openParen => '('
  | closeParen => ')'
  | less => '<'
  | greater => '>'

/-- The mark as a text of one character. -/
def text (m : Mark) : String := String.ofList [m.char]

/-- The mark that a character is. -/
def ofChar? (c : Char) : Option Mark := all.find? fun m => m.char = c

theorem mem_all (m : Mark) : m ∈ all := by cases m <;> decide

/-- Different marks are different characters. -/
theorem char_inj {m n : Mark} : m.char = n.char ↔ m = n := by
  cases m <;> cases n <;> decide

@[simp] theorem ofChar?_char (m : Mark) : ofChar? m.char = some m := by cases m <;> decide

theorem ofChar?_eq_some_iff {c : Char} {m : Mark} : ofChar? c = some m ↔ c = m.char := by
  constructor
  · intro h
    have := List.find?_some h
    simp at this
    exact this.symm
  · rintro rfl
    exact ofChar?_char m

end Mark

/-- A token of a path pattern. -/
inductive Token where
  | mark (m : Mark)
  | name (text : String)
  deriving DecidableEq

/-- The characters that names are made of. -/
def isNameChar (c : Char) : Bool := isWord c || c = '\'' || c = '@' || c = ':' || c = '%'

namespace Token

def text : Token → String
  | mark m => m.text
  | name text => text

/-- The token with a given text: a mark if it is one, else a name. -/
def ofText (text : String) : Token :=
  match Mark.all.find? fun m => m.text = text with
  | some m => mark m
  | none => name text

def isMark : Token → Bool
  | mark _ => true
  | name _ => false

/-- The text of several tokens, separated by spaces. -/
def joined (tokens : List Token) : String := " ".intercalate (tokens.map text)

/-- The name that a run of characters makes, if it is not empty. The run is held in reverse. -/
def ofRun : List Char → List Token
  | [] => []
  | run => [name (String.ofList run.reverse)]

/-- The mark that a character makes, if it makes one. -/
def ofChar (c : Char) : List Token := ((Mark.ofChar? c).map mark).toList

/-- The tokens of the rest of a text, after the characters of an unfinished name in reverse. -/
def scan : List Char → List Char → List Token
  | run, [] => ofRun run
  | run, c :: rest =>
    if isNameChar c then scan (c :: run) rest else ofRun run ++ ofChar c ++ scan [] rest

/-- No token is lost by writing it as a text. -/
@[simp] theorem text_ofText (s : String) : (ofText s).text = s := by
  unfold ofText
  split
  · next m found =>
    have := List.find?_some found
    simpa [text] using this
  · rfl

/-- A mark reads back from its text. -/
@[simp] theorem ofText_text (m : Mark) : ofText m.text = mark m := by
  cases m <;> decide

end Token

/-- The tokens of a text. -/
def tokensOf (pattern : String) : List Token := Token.scan [] pattern.toList

/-- A mark is no part of a name. -/
theorem isNameChar_mark (m : Mark) : isNameChar m.char = false := by
  cases m <;> decide

end GraphQuery
