import GraphQuery.Operation.Basic

/-!
# The reference of operations

The reference lists all operations by family, and describes one operation on a page of its own.

Key definitions: `overview`, `Operation.page`, `describe?`.
-/

namespace GraphQuery

/-- The notation of path patterns. -/
def pathNotation : String := "PATH PATTERNS

  p              follow predicate p forward
  <p             follow predicate p backward
  .              any predicate
  a,b            a then b
  a|b            a or b
  (a)            grouping
  a*  a+         zero-or-more / one-or-more repetitions
  a\x7bn,m\x7d         between n and m repetitions

Run 'woql path <PATTERN>' to compile a pattern.
"

/-- A text with blanks after it up to a width. -/
def padRight (width : Nat) (text : String) : String :=
  text ++ String.ofList (List.replicate (width - text.length) ' ')

namespace Operation

/-- The line of an operation in the list. -/
def line (op : Operation) : String :=
  "  " ++ padRight 18 op.name ++ op.kind ++ (if op.isUpdate then "  [update]" else "") ++ "\n"

/-- The lines of several operations. A family has its name above its first operation. -/
def lines (previous : Option Family) : List Operation → List String
  | [] => []
  | op :: rest =>
    let title := if previous = some op.family then "" else "\n" ++ op.family.text.toUpper ++ "\n"
    (title ++ op.line) :: lines (some op.family) rest

/-- The page of an operation. -/
def page (op : Operation) : String :=
  op.name ++ "\n" ++
  "  type:       " ++ op.kind ++ "\n" ++
  "  family:     " ++ op.family.text ++ "\n" ++
  "  parameters: " ++ ", ".intercalate op.parameters ++ "\n" ++
  "  update:     " ++ (if op.isUpdate then "yes" else "no") ++ "\n"

end Operation

/-- The list of operations, and the notation of path patterns. -/
def overview : String :=
  "WOQL OPERATIONS\n" ++ String.join (Operation.lines none Operation.all) ++ "\n" ++ pathNotation

/-- The page of the operation with a given name. -/
def describe? (name : String) : Option String := (Operation.ofName? name).map Operation.page

end GraphQuery
