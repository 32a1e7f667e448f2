import GraphQuery.Term.Basic

/-!
# Documents

The content of a document is plain JSON. In a query it is written with the kind of each part:
objects become dictionary templates, arrays become lists, strings with the prefix `v:` become
variables and other scalars typed values. No two contents are written alike.

Key definitions: `encodeDocument`.
-/

namespace GraphQuery

/-- A scalar with its datatype. -/
def documentScalar (datatype : String) (value : Json) : Json :=
  .obj [("@type", .str "Value"), ("data", Term.typedValue datatype value)]

/-- The datatype of a number: a floating one is a decimal. -/
def Number.datatype : Number → String
  | .int _ => "xsd:integer"
  | .float _ => "xsd:decimal"

/-- A string: a variable or a text. -/
def documentText (s : String) : Json :=
  match variableOf? s with
  | some name => .obj [("@type", .str "Value"), ("variable", .str name)]
  | none => documentScalar "xsd:string" (.str s)

/-- A dictionary template with the given fields. -/
def documentTemplate (fields : List Json) : Json :=
  .obj [("@type", .str "Value"),
    ("dictionary", .obj [("@type", .str "DictionaryTemplate"), ("data", .arr fields)])]

mutual

/-- The content of a document as part of a query. -/
def encodeDocument : Json → Json
  | .null => .null
  | .bool b => documentScalar "xsd:boolean" (.bool b)
  | .number n => documentScalar n.datatype (.number n)
  | .str s => documentText s
  | .arr items => .obj [("@type", .str "Value"), ("list", .arr (encodeItems items))]
  | .obj fields => documentTemplate (encodeFields fields)

def encodeItems : List Json → List Json
  | [] => []
  | item :: rest => encodeDocument item :: encodeItems rest

def encodeFields : List (String × Json) → List Json
  | [] => []
  | (key, value) :: rest =>
    .obj [("@type", .str "FieldValuePair"), ("field", .str key), ("value", encodeDocument value)] ::
      encodeFields rest

end

/-- The term of a document. -/
def Term.document (content : Json) : Term := .json (encodeDocument content)

end GraphQuery
