import GraphQuery.Term.Basic
import GraphQuery.Text.Word

/-!
# Text templates

A template is a text with variables in it, each written with the prefix `v:` and as long a run of
word characters as follows. Splitting a template gives its texts and variables in order, and writing
these one after another gives the template back.

Key definitions: `Template.Part`, `Template.split`, `Template.join`.
Key theorems: `Template.join_split`.
-/

namespace GraphQuery.Template

/-- A part of a template: literal text, or a variable. -/
inductive Part where
  | text (chars : List Char)
  | variable (name : List Char)
  deriving DecidableEq

/-- The text that a finished run of literal characters makes, held in reverse. -/
def literal : List Char → List Part
  | [] => []
  | run => [.text run.reverse]

/-- Where the scan of a template stands. -/
inductive Mode where
  /-- In literal text; the run so far in reverse. -/
  | text (run : List Char)
  /-- In the name of a variable; the name so far in reverse. -/
  | name (run : List Char)

/-- The characters read so far of the part that is not finished. -/
def Mode.chars : Mode → List Char
  | .text run => run.reverse
  | .name run => 'v' :: ':' :: run.reverse

/-- The part that the end of the template completes. -/
def Mode.finish : Mode → List Part
  | .text run => literal run
  | .name run => [.variable run.reverse]

/-- The parts of the rest of a template. -/
def scan : Mode → List Char → List Part
  | mode, [] => mode.finish
  | .text run, 'v' :: ':' :: c :: rest =>
    if isWord c then literal run ++ scan (.name [c]) rest
    else scan (.text (':' :: 'v' :: run)) (c :: rest)
  | .text run, c :: rest => scan (.text (c :: run)) rest
  | .name run, c :: rest =>
    if isWord c then scan (.name (c :: run)) rest
    else .variable run.reverse :: scan (.text []) (c :: rest)
termination_by mode chars => (chars.length, match mode with | .text _ => 0 | .name _ => 1)

/-- The parts of a template. -/
def split (template : String) : List Part := scan (.text []) template.toList

/-- How a part is written. -/
def Part.chars : Part → List Char
  | .text chars => chars
  | .variable name => 'v' :: ':' :: name

/-- The template with the given parts. -/
def join (parts : List Part) : String := String.ofList (parts.flatMap Part.chars)

/-- The term of a part. -/
def Part.term : Part → Term
  | .text chars => .text (String.ofList chars)
  | .variable name => .variable (String.ofList name)

theorem chars_literal (run : List Char) : (literal run).flatMap Part.chars = run.reverse := by
  cases run <;> simp [literal, Part.chars]

/-- No character is lost by a scan. -/
theorem chars_scan (mode : Mode) (chars : List Char) :
    (scan mode chars).flatMap Part.chars = mode.chars ++ chars := by
  fun_induction scan mode chars with
  | case1 mode => cases mode <;> simp [Mode.finish, Mode.chars, chars_literal, Part.chars]
  | case2 run c rest word ih => simp [chars_literal, ih, Mode.chars]
  | case3 run c rest word ih => simp [ih, Mode.chars]
  | case4 run c rest _ ih => simp [ih, Mode.chars]
  | case5 run c rest word ih => simp [ih, Mode.chars]
  | case6 run c rest word ih => simp [ih, Mode.chars, Part.chars]

/-- The parts of a template give it back. -/
@[simp] theorem join_split (template : String) : join (split template) = template := by
  simp [join, split, chars_scan, Mode.chars]

end GraphQuery.Template
