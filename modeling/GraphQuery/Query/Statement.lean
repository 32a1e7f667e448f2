import GraphQuery.Query.Argument
import GraphQuery.Query.Builder
import GraphQuery.Term.Template

/-!
# Statements

The operations that write a node of their own without being about a query: edges of a graph, paths,
sizes, and everything that only fills slots.

Key definitions: `EdgeKind`, `Builder.edge`, `Builder.star`, `Builder.path`, `Builder.size`,
`Builder.fill`.
-/

namespace GraphQuery

/-- What is said of an edge. -/
inductive EdgeKind where
  /-- It is there. -/
  | present
  /-- It was added by the commit under inspection. -/
  | added
  /-- It was removed by that commit. -/
  | removed
  /-- It is to be added. -/
  | add
  /-- It is to be deleted. -/
  | delete
  deriving DecidableEq

/-- The operation on an edge, in the default graph or in one that is named. -/
def EdgeKind.operation (named : Bool) : EdgeKind → Operation
  | present => if named then .quad else .triple
  | added => if named then .addedQuad else .addedTriple
  | removed => if named then .removedQuad else .removedTriple
  | add => if named then .addQuad else .addTriple
  | delete => if named then .deleteQuad else .deleteTriple

/-- The last field of an operation when it may be left out. -/
def Operation.optionalField? : Operation → Option String
  | .star => some "graph"
  | .path => some "path"
  | .slice => some "end"
  | .insertDocument | .updateDocument => some "identifier"
  | _ => none

namespace Builder

/-- The position of a field. -/
def position (op : Operation) (field : String) : Position := ⟨op.name, field⟩

/-- The fields of an edge in the default graph. -/
def edgeParts (vocabulary : Vocabulary) (op : Operation) (subject predicate object : Term) :
    Except Error (List (String × Json)) := do
  let subject ← (position op "subject").reference vocabulary "Subject" subject
  let predicate ← (position op "predicate").reference vocabulary "Predicate" predicate
  let object ← (position op "object").fill vocabulary .value none object
  return [("subject", subject), ("predicate", predicate), ("object", object)]

/-- The fields of an edge. The name of a graph must not be blank. -/
def edgeFields (vocabulary : Vocabulary) (op : Operation) (subject predicate object : Term) :
    Option String → Except Error (List (String × Json))
  | none => edgeParts vocabulary op subject predicate object
  | some graph =>
    if isBlank graph then .error ((position op "graph").error .noGraph)
    else do
      let fields ← edgeParts vocabulary op subject predicate object
      return fields ++ [("graph", .str graph)]

/-- Writes an edge. -/
def edgeNode (op : Operation) (subject predicate object : Term) (graph : Option String)
    (b : Builder) : Except Error Builder := do
  let fields ← edgeFields b.vocabulary op subject predicate object graph
  return b.addNode op fields

/-- Says something of an edge, in the default graph or in the one named. -/
def edge (kind : EdgeKind) (subject predicate object : Term) (graph : Option String)
    (b : Builder) : Except Error Builder :=
  b.edgeNode (kind.operation graph.isSome) subject predicate object graph

/-- Every edge, its parts bound to variables of fixed names. -/
def star (graph : Option String) (b : Builder) : Except Error Builder :=
  b.edgeNode .star (.str "v:Subject") (.str "v:Predicate") (.str "v:Object") graph

/-- The pattern of a path as it is written: with its predicates looked up, if that is asked for. -/
def writtenPattern (vocabulary : Vocabulary) (expandsPaths : Bool) (pattern : Pattern) : Pattern :=
  if expandsPaths then pattern.mapNames vocabulary.expand else pattern

/-- The field of an argument that may be left out. -/
def optionalArgument (field : String) (term : Term) (fill : Term → Except Error Json) :
    Except Error (List (String × Json)) :=
  if term.isNull then .ok [] else (fill term).map fun json => [(field, json)]

/-- The fields of a path along a pattern. The edges on it are bound to `path`, unless that is null.
-/
def pathFields (vocabulary : Vocabulary) (subject : Term) (pattern : Pattern)
    (object path : Term) : Except Error (List (String × Json)) := do
  let subject ← (position .path "subject").reference vocabulary "Subject" subject
  let object ← (position .path "object").fill vocabulary .value none object
  let path ← optionalArgument "path" path ((position .path "path").fill vocabulary .value none)
  return [("subject", subject), ("pattern", pattern.toJson), ("object", object)] ++ path

/-- Writes a path along a pattern. -/
def along (subject : Term) (pattern : Pattern) (object path : Term) (b : Builder) :
    Except Error Builder := do
  let pattern := writtenPattern b.vocabulary b.expandsPaths pattern
  let fields ← pathFields b.vocabulary subject pattern object path
  return b.addNode .path fields

/-- Writes a path along a pattern that is given as text. -/
def path (subject : Term) (pattern : String) (object path : Term) (b : Builder) :
    Except Error Builder := do
  let pattern ← (Pattern.compile pattern).mapError Error.path
  b.along subject pattern object path

/-- The fields of a number that belongs to a graph or a database. -/
def measureFields (vocabulary : Vocabulary) (op : Operation) (field : String) (resource : String)
    (amount : Term) : Except Error (List (String × Json)) := do
  let resource ← (position op "resource").nonBlank resource
  let amount ← (position op field).fill vocabulary .data none amount
  return [("resource", .str resource), (field, amount)]

/-- Writes a number that belongs to a graph or a database. -/
def measure (op : Operation) (field : String) (resource : String) (amount : Term) (b : Builder) :
    Except Error Builder := do
  let fields ← measureFields b.vocabulary op field resource amount
  return b.addNode op fields

/-- The size in bytes. -/
def size (resource : String) (amount : Term) (b : Builder) : Except Error Builder :=
  b.measure .size "size" resource amount

/-- The number of edges. -/
def tripleCount (resource : String) (amount : Term) (b : Builder) : Except Error Builder :=
  b.measure .tripleCount "triple_count" resource amount

/-- The terms that fill slots in place of those given: a bare string to concatenate is a template.
-/
def preparedArguments : Operation → List Term → List Term
  | .concatenate, .str template :: rest =>
    .list ((Template.split template).map Template.Part.term) :: rest
  | _, terms => terms

/-- The slots with their terms. The last slot is left out if it may be and its term is null. -/
def slotArguments (op : Operation) (terms : List Term) : List ((String × Slot) × Term) :=
  (op.slots.zip (preparedArguments op terms)).filter fun (slot, term) =>
    !(op.optionalField? = some slot.1 && term.isNull)

/-- Fills a slot. -/
def fillArgument (vocabulary : Vocabulary) (op : Operation) :
    (String × Slot) × Term → Except Error (String × Json)
  | ((field, slot), term) =>
    ((position op field).fill vocabulary slot none term).map fun json => (field, json)

/-- The fields of an operation that only fills slots, given a term for each. -/
def slotFields (vocabulary : Vocabulary) (op : Operation) (terms : List Term) :
    Except Error (List (String × Json)) :=
  (slotArguments op terms).mapM (fillArgument vocabulary op)

/-- Writes an operation that only fills slots. -/
def fill (op : Operation) (terms : List Term) (b : Builder) : Except Error Builder := do
  let fields ← slotFields b.vocabulary op terms
  return b.addNode op fields

end Builder

end GraphQuery
