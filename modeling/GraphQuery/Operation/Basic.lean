import GraphQuery.Slot
import GraphQuery.UpdateScan

/-!
# Operations

Every operation that a query is built with: its name, the `@type` of the node it writes, the family
it belongs to and the names of its fields in order. For the operations that only fill slots there is
also which slot each argument goes to.

Key definitions: `Operation`, `Operation.row`, `Operation.slots`, `Operation.all`,
`Operation.ofName?`.
Key theorems: `Operation.mem_all`, `Operation.parameters_of_slots`.
-/

namespace GraphQuery

/-- The families that the reference lists operations by. -/
inductive Family where
  | triples
  | control
  | comparison
  | strings
  | lists
  | arithmetic
  | keys
  | documents
  deriving DecidableEq

/-- The name of a family. -/
def Family.text : Family → String
  | triples => "triples"
  | control => "control"
  | comparison => "comparison"
  | strings => "strings"
  | lists => "lists"
  | arithmetic => "arithmetic"
  | keys => "keys"
  | documents => "documents"

/-- An operation. -/
inductive Operation where
  | triple
  | addedTriple
  | removedTriple
  | quad
  | addedQuad
  | removedQuad
  | addTriple
  | addQuad
  | deleteTriple
  | deleteQuad
  | updateTriple
  | updateQuad
  | star
  | path
  | size
  | tripleCount
  | subsumption
  | isA
  | typeOf
  | typecast
  | and
  | or
  | not
  | optional
  | once
  | immediately
  | when
  | select
  | distinct
  | limit
  | start
  | orderBy
  | groupBy
  | count
  | fromGraph
  | intoGraph
  | usingCollection
  | comment
  | truth
  | equals
  | less
  | greater
  | like
  | trim
  | concatenate
  | join
  | split
  | substring
  | upper
  | lower
  | pad
  | regexp
  | length
  | member
  | sum
  | slice
  | dot
  | setDifference
  | setIntersection
  | setUnion
  | setMember
  | listToSet
  | eval
  | plus
  | minus
  | times
  | divide
  | div
  | exp
  | floor
  | lexicalKey
  | hashKey
  | randomKey
  | insertDocument
  | updateDocument
  | deleteDocument
  | readDocument
  deriving DecidableEq

/-- What is known of an operation. -/
structure OperationRow where
  /-- What the operation is called. -/
  name : String
  /-- The `@type` of the node it writes. -/
  kind : String
  family : Family
  /-- The names of its fields in order. -/
  parameters : List String

namespace Operation

/-- The table of operations. -/
def row : Operation → OperationRow
  | triple => ⟨"triple", "Triple", .triples, ["subject", "predicate", "object"]⟩
  | addedTriple => ⟨"added_triple", "AddedTriple", .triples, ["subject", "predicate", "object"]⟩
  | removedTriple => ⟨"removed_triple", "DeletedTriple", .triples,
      ["subject", "predicate", "object"]⟩
  | quad => ⟨"quad", "Triple", .triples, ["subject", "predicate", "object", "graph"]⟩
  | addedQuad => ⟨"added_quad", "AddedTriple", .triples,
      ["subject", "predicate", "object", "graph"]⟩
  | removedQuad => ⟨"removed_quad", "DeletedTriple", .triples,
      ["subject", "predicate", "object", "graph"]⟩
  | addTriple => ⟨"add_triple", "AddTriple", .triples, ["subject", "predicate", "object"]⟩
  | addQuad => ⟨"add_quad", "AddTriple", .triples, ["subject", "predicate", "object", "graph"]⟩
  | deleteTriple => ⟨"delete_triple", "DeleteTriple", .triples, ["subject", "predicate", "object"]⟩
  | deleteQuad => ⟨"delete_quad", "DeleteTriple", .triples,
      ["subject", "predicate", "object", "graph"]⟩
  | updateTriple => ⟨"update_triple", "And", .triples, ["subject", "predicate", "object"]⟩
  | updateQuad => ⟨"update_quad", "And", .triples, ["subject", "predicate", "object", "graph"]⟩
  | star => ⟨"star", "Triple", .triples, ["graph", "subject", "predicate", "object"]⟩
  | path => ⟨"path", "Path", .triples, ["subject", "pattern", "object", "path"]⟩
  | size => ⟨"size", "Size", .triples, ["resource", "size"]⟩
  | tripleCount => ⟨"triple_count", "TripleCount", .triples, ["resource", "triple_count"]⟩
  | subsumption => ⟨"subsumption", "Subsumption", .triples, ["parent", "child"]⟩
  | isA => ⟨"isa", "IsA", .triples, ["element", "type"]⟩
  | typeOf => ⟨"type_of", "TypeOf", .triples, ["value", "type"]⟩
  | typecast => ⟨"typecast", "Typecast", .triples, ["value", "type", "result"]⟩
  | and => ⟨"and", "And", .control, ["and"]⟩
  | or => ⟨"or", "Or", .control, ["or"]⟩
  | not => ⟨"not", "Not", .control, ["query"]⟩
  | optional => ⟨"opt", "Optional", .control, ["query"]⟩
  | once => ⟨"once", "Once", .control, ["query"]⟩
  | immediately => ⟨"immediately", "Immediately", .control, ["query"]⟩
  | when => ⟨"when", "When", .control, ["query", "consequent"]⟩
  | select => ⟨"select", "Select", .control, ["variables", "query"]⟩
  | distinct => ⟨"distinct", "Distinct", .control, ["variables", "query"]⟩
  | limit => ⟨"limit", "Limit", .control, ["limit", "query"]⟩
  | start => ⟨"start", "Start", .control, ["start", "query"]⟩
  | orderBy => ⟨"order_by", "OrderBy", .control, ["ordering", "query"]⟩
  | groupBy => ⟨"group_by", "GroupBy", .control, ["group_by", "template", "grouped", "query"]⟩
  | count => ⟨"count", "Count", .control, ["count", "query"]⟩
  | fromGraph => ⟨"from_graph", "From", .control, ["graph", "query"]⟩
  | intoGraph => ⟨"into_graph", "Into", .control, ["graph", "query"]⟩
  | usingCollection => ⟨"using", "Using", .control, ["collection", "query"]⟩
  | comment => ⟨"comment", "Comment", .control, ["comment", "query"]⟩
  | truth => ⟨"truth", "True", .control, []⟩
  | equals => ⟨"eq", "Equals", .comparison, ["left", "right"]⟩
  | less => ⟨"less", "Less", .comparison, ["left", "right"]⟩
  | greater => ⟨"greater", "Greater", .comparison, ["left", "right"]⟩
  | like => ⟨"like", "Like", .comparison, ["left", "right", "similarity"]⟩
  | trim => ⟨"trim", "Trim", .strings, ["untrimmed", "trimmed"]⟩
  | concatenate => ⟨"concat", "Concatenate", .strings, ["list", "result"]⟩
  | join => ⟨"join", "Join", .strings, ["list", "separator", "result"]⟩
  | split => ⟨"split", "Split", .strings, ["string", "pattern", "list"]⟩
  | substring => ⟨"substr", "Substring", .strings,
      ["string", "before", "length", "after", "substring"]⟩
  | upper => ⟨"upper", "Upper", .strings, ["mixed", "upper"]⟩
  | lower => ⟨"lower", "Lower", .strings, ["mixed", "lower"]⟩
  | pad => ⟨"pad", "Pad", .strings, ["string", "char", "times", "result"]⟩
  | regexp => ⟨"regexp", "Regexp", .strings, ["pattern", "string", "result"]⟩
  | length => ⟨"length", "Length", .strings, ["list", "length"]⟩
  | member => ⟨"member", "Member", .lists, ["member", "list"]⟩
  | sum => ⟨"sum", "Sum", .lists, ["list", "result"]⟩
  | slice => ⟨"slice", "Slice", .lists, ["list", "result", "start", "end"]⟩
  | dot => ⟨"dot", "Dot", .lists, ["document", "field", "value"]⟩
  | setDifference => ⟨"set_difference", "SetDifference", .lists, ["list_a", "list_b", "result"]⟩
  | setIntersection => ⟨"set_intersection", "SetIntersection", .lists,
      ["list_a", "list_b", "result"]⟩
  | setUnion => ⟨"set_union", "SetUnion", .lists, ["list_a", "list_b", "result"]⟩
  | setMember => ⟨"set_member", "SetMember", .lists, ["element", "set"]⟩
  | listToSet => ⟨"list_to_set", "ListToSet", .lists, ["list", "set"]⟩
  | eval => ⟨"eval", "Eval", .arithmetic, ["expression", "result"]⟩
  | plus => ⟨"plus", "Plus", .arithmetic, ["left", "right"]⟩
  | minus => ⟨"minus", "Minus", .arithmetic, ["left", "right"]⟩
  | times => ⟨"times", "Times", .arithmetic, ["left", "right"]⟩
  | divide => ⟨"divide", "Divide", .arithmetic, ["left", "right"]⟩
  | div => ⟨"div", "Div", .arithmetic, ["left", "right"]⟩
  | exp => ⟨"exp", "Exp", .arithmetic, ["left", "right"]⟩
  | floor => ⟨"floor", "Floor", .arithmetic, ["argument"]⟩
  | lexicalKey => ⟨"idgen", "LexicalKey", .keys, ["base", "key_list", "uri"]⟩
  | hashKey => ⟨"hash", "HashKey", .keys, ["base", "key_list", "uri"]⟩
  | randomKey => ⟨"random_idgen", "RandomKey", .keys, ["base", "uri"]⟩
  | insertDocument => ⟨"insert_document", "InsertDocument", .documents, ["document", "identifier"]⟩
  | updateDocument => ⟨"update_document", "UpdateDocument", .documents, ["document", "identifier"]⟩
  | deleteDocument => ⟨"delete_document", "DeleteDocument", .documents, ["identifier"]⟩
  | readDocument => ⟨"read_document", "ReadDocument", .documents, ["identifier", "document"]⟩

/-- All operations, in the order of the reference. -/
def all : List Operation :=
  [triple, addedTriple, removedTriple, quad, addedQuad, removedQuad, addTriple, addQuad,
    deleteTriple, deleteQuad, updateTriple, updateQuad, star, path, size, tripleCount,
    subsumption, isA, typeOf, typecast, and, or, not, optional, once, immediately, when, select,
    distinct, limit, start, orderBy, groupBy, count, fromGraph, intoGraph, usingCollection,
    comment, truth, equals, less, greater, like, trim, concatenate, join, split, substring, upper,
    lower, pad, regexp, length, member, sum, slice, dot, setDifference, setIntersection, setUnion,
    setMember, listToSet, eval, plus, minus, times, divide, div, exp, floor, lexicalKey, hashKey,
    randomKey, insertDocument, updateDocument, deleteDocument, readDocument]

def name (op : Operation) : String := op.row.name

def kind (op : Operation) : String := op.row.kind

def family (op : Operation) : Family := op.row.family

/-- The names of the fields in order. -/
def parameters (op : Operation) : List String := op.row.parameters

/-- The slots of an operation that does nothing but fill slots, with the name of the field that each
is. -/
def slots : Operation → List (String × Slot)
  | subsumption => [("parent", .node), ("child", .node)]
  | isA => [("element", .node), ("type", .node)]
  | typeOf => [("value", .value), ("type", .node)]
  | typecast => [("value", .value), ("type", .node), ("result", .value)]
  | equals => [("left", .value), ("right", .value)]
  | less | greater => [("left", .data), ("right", .data)]
  | like => [("left", .data), ("right", .data), ("similarity", .data)]
  | trim => [("untrimmed", .data), ("trimmed", .data)]
  | concatenate | sum => [("list", .data), ("result", .data)]
  | join => [("list", .data), ("separator", .data), ("result", .data)]
  | split => [("string", .data), ("pattern", .data), ("list", .data)]
  | substring =>
      [("string", .data), ("before", .data), ("length", .data), ("after", .data),
        ("substring", .data)]
  | upper => [("mixed", .data), ("upper", .data)]
  | lower => [("mixed", .data), ("lower", .data)]
  | pad => [("string", .data), ("char", .data), ("times", .data), ("result", .data)]
  | regexp => [("pattern", .data), ("string", .data), ("result", .data)]
  | length => [("list", .data), ("length", .data)]
  | member => [("member", .value), ("list", .value)]
  | slice => [("list", .data), ("result", .data), ("start", .data), ("end", .data)]
  | dot => [("document", .data), ("field", .data), ("value", .data)]
  | setDifference | setIntersection | setUnion =>
      [("list_a", .value), ("list_b", .value), ("result", .value)]
  | setMember => [("element", .value), ("set", .value)]
  | listToSet => [("list", .value), ("set", .value)]
  | eval => [("expression", .arithmetic), ("result", .arithmetic)]
  | plus | minus | times | divide | div | exp => [("left", .arithmetic), ("right", .arithmetic)]
  | floor => [("argument", .arithmetic)]
  | lexicalKey | hashKey => [("base", .data), ("key_list", .data), ("uri", .node)]
  | randomKey => [("base", .data), ("uri", .node)]
  | insertDocument | updateDocument => [("document", .value), ("identifier", .node)]
  | deleteDocument => [("identifier", .node)]
  | readDocument => [("identifier", .node), ("document", .value)]
  | _ => []

/-- The two operations that replace a value are made of several nodes. -/
def isComposite (op : Operation) : Bool := op = updateTriple || op = updateQuad

/-- Whether the operation changes the data. -/
def isUpdate (op : Operation) : Bool := op.isComposite || isUpdateKind op.kind

/-- The operation of a given name; failing that, the first that writes nodes of that `@type`, those
made of several nodes not counting. -/
def ofName? (name : String) : Option Operation :=
  (all.find? fun op => op.name = name).or
    (all.find? fun op => op.kind = name && !op.isComposite)

/-- The list of operations is complete. -/
theorem mem_all (op : Operation) : op ∈ all := by cases op <;> decide

/-- An operation that fills slots has their names as fields. -/
theorem parameters_of_slots {op : Operation} (h : op.slots ≠ []) :
    op.parameters = op.slots.map Prod.fst := by
  cases op <;> first | rfl | exact absurd rfl h

end Operation

end GraphQuery
