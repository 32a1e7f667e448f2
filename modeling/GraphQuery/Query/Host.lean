import GraphQuery.Query.Argument
import GraphQuery.Query.Builder

/-!
# Hosts

A host is an operation about one query: it negates it, restricts its solutions, orders or groups
them, or runs it elsewhere.

Key definitions: `OrderKey`, `Host`, `Host.operation`, `Host.fields`, `Builder.about`,
`Builder.when`.
-/

namespace GraphQuery

/-- A way to order solutions. -/
inductive Direction where
  | ascending
  | descending
  deriving DecidableEq

def Direction.text : Direction → String
  | ascending => "asc"
  | descending => "desc"

/-- A variable that solutions are ordered by. -/
structure OrderKey where
  variableName : String
  direction : Direction
  deriving DecidableEq

namespace OrderKey

/-- The key of a variable written with or without its prefix. -/
def ofVariable (direction : Direction) (s : String) : OrderKey := ⟨stripVariable s, direction⟩

def toJson (key : OrderKey) : Json :=
  .obj [("@type", .str "OrderTemplate"), ("order", .str key.direction.text),
    ("variable", .str key.variableName)]

end OrderKey

/-- An operation about one query, with its other arguments. -/
inductive Host where
  | not
  | optional
  | once
  | immediately
  | select (vars : List Term)
  | distinct (vars : List Term)
  | limit (n : UInt64)
  | start (n : UInt64)
  | orderBy (keys : List OrderKey)
  /-- Groups by the first variables and collects those of the template. -/
  | groupBy (vars : List Term) (template grouped : Term)
  | count (amount : Term)
  | fromGraph (graph : String)
  | intoGraph (graph : String)
  | usingCollection (collection : String)
  | comment (text : String)

namespace Host

def operation : Host → Operation
  | not => .not
  | optional => .optional
  | once => .once
  | immediately => .immediately
  | select _ => .select
  | distinct _ => .distinct
  | limit _ => .limit
  | start _ => .start
  | orderBy _ => .orderBy
  | groupBy _ _ _ => .groupBy
  | count _ => .count
  | fromGraph _ => .fromGraph
  | intoGraph _ => .intoGraph
  | usingCollection _ => .usingCollection
  | comment _ => .comment

/-- The position of a field. -/
def position (h : Host) (field : String) : Position := ⟨h.operation.name, field⟩

/-- The field of a descriptor. -/
def nonBlankField (h : Host) (field text : String) : Except Error (List (String × Json)) :=
  ((h.position field).nonBlank text).map fun text => [(field, .str text)]

/-- The field of a list of variables. -/
def variablesField (h : Host) (field : String) (terms : List Term) :
    Except Error (List (String × Json)) :=
  ((h.position field).variableNames terms).map fun names => [(field, names)]

/-- The variables of a template, which may be a single one. -/
def templateTerms : Term → List Term
  | .list items => items
  | term => [term]

/-- The fields of the node but for its query. -/
def fields (vocabulary : Vocabulary) (h : Host) : Except Error (List (String × Json)) :=
  match h with
  | not | optional | once | immediately => .ok []
  | select vars | distinct vars => h.variablesField "variables" vars
  | limit n => .ok [("limit", .int n.toNat)]
  | start n => .ok [("start", .int n.toNat)]
  | orderBy keys =>
    if keys.isEmpty then .error ((h.position "ordering").error .noOrdering)
    else .ok [("ordering", .arr (keys.map OrderKey.toJson))]
  | groupBy vars template grouped => do
    let groupField ← h.variablesField "group_by" vars
    let templateField ← h.variablesField "template" (templateTerms template)
    let grouped ← (h.position "grouped").fill vocabulary .value none grouped
    return groupField ++ templateField ++ [("grouped", grouped)]
  | count amount =>
    ((h.position "count").fill vocabulary .data none amount).map fun amount => [("count", amount)]
  | fromGraph graph | intoGraph graph => h.nonBlankField "graph" graph
  | usingCollection collection => h.nonBlankField "collection" collection
  | comment text => .ok [("comment", Term.typedValue "xsd:string" (.str text))]

end Host

namespace Builder

/-- Writes a host and its query. -/
def about (h : Host) (q : SubQuery) (b : Builder) : Except Error Builder := do
  let fields ← h.fields b.vocabulary
  b.addNodeAbout h.operation fields q

/-- Runs one query for each solution of another. At most one of the two is left to the operations
that follow. -/
def when (condition consequent : SubQuery) (b : Builder) : Except Error Builder :=
  if condition.isFollowing && consequent.isFollowing then
    .error (.parameter Operation.when.name "query" .bothOpen)
  else do
    let b := b.addNode .when []
    let host := b.cursor
    let (b, query) ← b.storeQuery .when "query" condition
    let (b, next) ← b.storeQuery .when "consequent" consequent
    let b := b.modify host fun n => (n.set "query" (.query query)).set "consequent" (.query next)
    return if consequent.isFollowing then b.goTo next
      else if condition.isFollowing then b.goTo query
      else b

end Builder

end GraphQuery
