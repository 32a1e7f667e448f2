import GraphQuery.Json.Printer
import GraphQuery.Term.Basic
import GraphQuery.Text.Quoted

/-!
# Terms in messages

A message shows a term by the kind of each of its parts, with texts quoted.

Key definitions: `Json.shown`, `Term.shown`.
-/

namespace GraphQuery

namespace Json

mutual

/-- A JSON value with the kind of each part. -/
def shown : Json → String
  | .null => "Null"
  | .bool b => "Bool(" ++ toString b ++ ")"
  | .number n => "Number(" ++ n.text ++ ")"
  | .str s => "String(" ++ quoted s ++ ")"
  | .arr items => "Array [" ++ ", ".intercalate (shownItems items) ++ "]"
  | .obj fields => "Object \x7b" ++ ", ".intercalate (shownFields fields) ++ "\x7d"

def shownItems : List Json → List String
  | [] => []
  | item :: rest => shown item :: shownItems rest

def shownFields : List (String × Json) → List String
  | [] => []
  | (key, value) :: rest => (quoted key ++ ": " ++ shown value) :: shownFields rest

end

end Json

namespace Term

mutual

/-- A term with the kind of each part. -/
def shown : Term → String
  | .str s => "Str(" ++ quoted s ++ ")"
  | .text s => "Text(" ++ quoted s ++ ")"
  | .int n => "Int(" ++ toString n ++ ")"
  | .float x => "Float(" ++ Layout.shown.text x ++ ")"
  | .decimal d => "Decimal(" ++ d.text ++ ")"
  | .bool b => "Bool(" ++ toString b ++ ")"
  | .moment s => "DateTime(" ++ quoted s ++ ")"
  | .variable name => "Var(" ++ quoted name ++ ")"
  | .json value => "Ast(" ++ value.shown ++ ")"
  | .list items => "List([" ++ ", ".intercalate (shownAll items) ++ "])"
  | .null => "Null"

def shownAll : List Term → List String
  | [] => []
  | item :: rest => shown item :: shownAll rest

end

end Term

end GraphQuery
