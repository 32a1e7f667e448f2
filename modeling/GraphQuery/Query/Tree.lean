import GraphQuery.Json.Basic

/-!
# Query trees

A query is a tree of nodes. A node has a kind, which is its `@type`, and fields; a field holds plain
JSON, one sub-query or a list of them. A tree has two forms in JSON. The raw form shows every node.
The wire form leaves out what says nothing: empty sub-queries, conjunctions and disjunctions of
fewer than two queries, and nodes that lost the query they are about.

Key definitions: `Branch`, `Tree`, `Tree.raw`, `Tree.wire?`, `Tree.ofFields`.
-/

namespace GraphQuery

/-- What a field holds; `α` is how it refers to a sub-query. -/
inductive Branch (α : Type) where
  | value (json : Json)
  | query (query : α)
  | queries (queries : List α)

namespace Branch

variable {α β : Type}

/-- Changes how sub-queries are referred to. -/
def map (f : α → β) : Branch α → Branch β
  | .value json => .value json
  | .query q => .query (f q)
  | .queries qs => .queries (qs.map f)

/-- The list of sub-queries under a name, if the field holds one. -/
def children (key : String) (fields : Dictionary (Branch α)) : List α :=
  match Dictionary.find? key fields with
  | some (.queries qs) => qs
  | _ => []

end Branch

/-- A query with its sub-queries. -/
inductive Tree where
  | node (kind : Option String) (fields : List (String × Branch Tree))

/-- The two ways to combine several queries into one. -/
inductive Combinator where
  | and
  | or
  deriving DecidableEq

namespace Combinator

/-- The kind of a node that combines queries. -/
def kind : Combinator → String
  | and => "And"
  | or => "Or"

/-- The field that holds the queries combined. -/
def key : Combinator → String
  | and => "and"
  | or => "or"

end Combinator

/-- The fields of an object with its `@type`, unless a field stands for it already. -/
def withKind (kind : Option String) (fields : Dictionary Json) : Dictionary Json :=
  match kind with
  | some kind => Dictionary.insertNew "@type" (.str kind) fields
  | none => fields

namespace Tree

instance : Inhabited Tree := ⟨.node none []⟩

/-- The query that says nothing. -/
def empty : Tree := .node none []

mutual

/-- The raw form. -/
def raw : Tree → Json
  | .node kind fields => .obj (withKind kind (rawFields fields))

def rawFields : List (String × Branch Tree) → List (String × Json)
  | [] => []
  | (key, branch) :: rest => (key, rawBranch branch) :: rawFields rest

def rawBranch : Branch Tree → Json
  | .value json => json
  | .query q => raw q
  | .queries qs => .arr (rawAll qs)

def rawAll : List Tree → List Json
  | [] => []
  | q :: qs => raw q :: rawAll qs

end

/-- The wire form of several queries under one name: none and one need no combination. -/
def combine (c : Combinator) : List Json → Option Json
  | [] => none
  | [query] => some query
  | queries => some (.obj [("@type", .str c.kind), (c.key, .arr queries)])

/-- Whether a node is about a query that has no wire form. A comment stands without one. -/
def isBare (kind : Option String) (fields : Dictionary (Branch (Option Json))) : Bool :=
  kind ≠ some "Comment" && fields.any fun
    | ("query", .query none) | ("consequent", .query none) => true
    | _ => false

/-- The JSON of a field whose sub-queries have been written. -/
def settleField : String × Branch (Option Json) → Option (String × Json)
  | (key, .value json) => some (key, json)
  | (key, .query (some json)) => some (key, json)
  | (_, .query none) => none
  | (key, .queries qs) => some (key, .arr (qs.filterMap id))

/-- The wire form of a node from those of its sub-queries. -/
def settle (kind : Option String) (fields : Dictionary (Branch (Option Json))) : Option Json :=
  if kind = some "And" then combine .and ((Branch.children "and" fields).filterMap id)
  else if kind = some "Or" then combine .or ((Branch.children "or" fields).filterMap id)
  else if isBare kind fields then none
  else
    match withKind kind (fields.filterMap settleField) with
    | [] => none
    | settled => some (.obj settled)

mutual

/-- The wire form, if anything remains. -/
def wire? : Tree → Option Json
  | .node kind fields => settle kind (wireFields fields)

def wireFields : List (String × Branch Tree) → List (String × Branch (Option Json))
  | [] => []
  | (key, branch) :: rest => (key, wireBranch branch) :: wireFields rest

def wireBranch : Branch Tree → Branch (Option Json)
  | .value json => .value json
  | .query q => .query (wire? q)
  | .queries qs => .queries (wireAll qs)

def wireAll : List Tree → List (Option Json)
  | [] => []
  | q :: qs => wire? q :: wireAll qs

end

/-- The wire form, an empty object when nothing remains. -/
def wire (t : Tree) : Json := t.wire?.getD (.obj [])

/-- Whether sub-queries stand under a name in a node of some kind. -/
def holdsQueries (kind : Option String) (key : String) : Bool :=
  key = "query" || key = "consequent" || (key = "and" && kind = some "And") ||
    (key = "or" && kind = some "Or")

mutual

/-- The field of an object as a field of a node: objects, and arrays of objects only, are
sub-queries where sub-queries stand. -/
def ofField (kind : Option String) (key : String) : Json → Branch Tree
  | .obj fields =>
    if holdsQueries kind key then
      .query (.node (Json.kindOf fields) (ofFieldList (Json.kindOf fields) fields))
    else .value (.obj fields)
  | .arr items =>
    if holdsQueries kind key && items.all Json.isObject then .queries (ofItems items)
    else .value (.arr items)
  | json => .value json

/-- The fields of an object as those of a node. Its `@type` is its kind, not a field. -/
def ofFieldList (kind : Option String) : List (String × Json) → List (String × Branch Tree)
  | [] => []
  | (key, json) :: rest =>
    if key = "@type" then ofFieldList kind rest
    else (key, ofField kind key json) :: ofFieldList kind rest

def ofItems : List Json → List Tree
  | [] => []
  | .obj fields :: rest =>
    .node (Json.kindOf fields) (ofFieldList (Json.kindOf fields) fields) :: ofItems rest
  | _ :: rest => ofItems rest

end

/-- The query that an object with the given fields is. An `@type` that is no string is dropped. -/
def ofFields (fields : Dictionary Json) : Tree :=
  .node (Json.kindOf fields) (ofFieldList (Json.kindOf fields) fields)

theorem rawAll_eq_map : ∀ qs : List Tree, rawAll qs = qs.map raw
  | [] => rfl
  | q :: qs => by simp [rawAll, rawAll_eq_map qs]

theorem wireAll_eq_map : ∀ qs : List Tree, wireAll qs = qs.map wire?
  | [] => rfl
  | q :: qs => by simp [wireAll, wireAll_eq_map qs]

theorem rawFields_eq_mapValues : ∀ fields : List (String × Branch Tree),
    rawFields fields = Dictionary.mapValues rawBranch fields
  | [] => rfl
  | (key, branch) :: rest => by
    simp [rawFields, Dictionary.mapValues, rawFields_eq_mapValues rest]

theorem wireFields_eq_mapValues : ∀ fields : List (String × Branch Tree),
    wireFields fields = Dictionary.mapValues wireBranch fields
  | [] => rfl
  | (key, branch) :: rest => by
    simp [wireFields, Dictionary.mapValues, wireFields_eq_mapValues rest]

theorem wireBranch_eq_map (branch : Branch Tree) : wireBranch branch = branch.map wire? := by
  cases branch <;> simp [wireBranch, Branch.map, wireAll_eq_map]

@[simp] theorem wire?_empty : empty.wire? = none := by
  simp [empty, wire?, wireFields, settle, isBare, withKind]

end Tree

end GraphQuery
