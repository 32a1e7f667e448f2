import GraphQuery.Config
import GraphQuery.Operation.Basic
import GraphQuery.Query.Store
import GraphQuery.UpdateScan

/-!
# Builders

A builder holds a query under construction and a cursor, the node where the next operation is
written. Operations in a row are conjoined: when the node at the cursor is taken, the conjunction it
belongs to gets a new node, or the node itself becomes a conjunction. A sub-query may be left to the
operations that follow; then the cursor moves into it.

Key definitions: `Builder`, `SubQuery`, `Builder.conjoin`, `Builder.addNode`, `Builder.place`,
`Builder.ofParts`.
-/

namespace GraphQuery

/-- A query under construction. -/
structure Builder where
  store : Store
  root : Handle
  cursor : Handle
  vocabulary : Vocabulary
  /-- Whether the predicates of path patterns are looked up. -/
  expandsPaths : Bool
  /-- While operations are conjoined, the conjunction whose last query is at the cursor. -/
  conjunction : Option Handle

/-- The query that an operation is about. -/
inductive SubQuery where
  /-- The one that the operations after this one write. -/
  | following
  | query (b : Builder)
  /-- The query that always succeeds. -/
  | truth
  /-- A finished query. -/
  | json (json : Json)

/-- Whether the sub-query is left to the operations that follow. -/
def SubQuery.isFollowing : SubQuery → Bool
  | following => true
  | _ => false

/-- The operation that combines queries. -/
def Combinator.operation : Combinator → Operation
  | and => .and
  | or => .or

namespace Builder

/-- A builder of the empty query. -/
def ofVocabulary (vocabulary : Vocabulary) : Builder :=
  let (store, root) := Store.empty.alloc .empty
  { store, root, cursor := root, vocabulary, expandsPaths := true, conjunction := none }

/-- A builder with the standard vocabulary. -/
def fresh : Builder := ofVocabulary .standard

instance : Inhabited Builder := ⟨fresh⟩

/-- A builder with given settings. -/
def ofConfig (config : Config) : Builder :=
  { ofVocabulary config.vocabulary with expandsPaths := config.expandsPaths }

/-- A builder of the empty query, set up like this one. -/
def cleared (b : Builder) : Builder :=
  { ofVocabulary b.vocabulary with expandsPaths := b.expandsPaths }

/-- Adds names to the vocabulary for the operations that follow. -/
def extendVocabulary (given : List (String × String)) (b : Builder) : Builder :=
  { b with vocabulary := b.vocabulary.extend given }

/-- Moves the cursor to a node that is not the last of a conjunction. -/
def goTo (h : Handle) (b : Builder) : Builder := { b with cursor := h, conjunction := none }

/-- A builder that goes on with a finished query. -/
def ofJson (json : Json) : Except Error Builder :=
  match json with
  | .obj fields =>
    let (store, root) := fresh.store.load fields
    .ok ({ fresh with store, root }.goTo root)
  | _ => .error (.parameter "from_json" "query" .notObject)

/-- The raw form of the query. -/
def raw (b : Builder) : Json := b.store.raw b.root

/-- The wire form of the query. -/
def wire (b : Builder) : Json := (b.store.tree b.root).wire

/-- The raw form of the query at the cursor. -/
def atCursor (b : Builder) : Json := b.store.raw b.cursor

/-- Whether some operation of the query changes the data. -/
def hasUpdate (b : Builder) : Bool := GraphQuery.hasUpdate b.raw

/-- Whether nothing was written yet. -/
def isEmpty (b : Builder) : Bool := (b.store.node b.root).isEmpty

/-- The node at the cursor. -/
def here (b : Builder) : Node := b.store.node b.cursor

/-- Changes a node. -/
def modify (h : Handle) (f : Node → Node) (b : Builder) : Builder :=
  { b with store := b.store.modify h f }

/-- Whether the cursor is at the last query of a conjunction. -/
def isLastOf (b : Builder) (conjunction : Handle) : Bool :=
  ((b.store.node conjunction).children "and").getLast? = some b.cursor

/-- Puts a conjunction of the node at the cursor alone in its place. -/
def wrap (b : Builder) : Builder :=
  let (store, first) := b.store.move b.cursor
  { b with store := store.put b.cursor ⟨some "And", [("and", .queries [first])]⟩ }

/-- The conjunction that the next query is added to: the one that the cursor is in, or the node at
the cursor, which is wrapped unless it is a conjunction. -/
def openConjunction (b : Builder) : Builder × Handle :=
  match b.conjunction.filter b.isLastOf with
  | some conjunction => (b, conjunction)
  | none => (if b.here.isKind "And" then b else b.wrap, b.cursor)

/-- Adds an empty query to the conjunction at hand and moves the cursor there. -/
def conjoin (b : Builder) : Builder :=
  let (b, conjunction) := b.openConjunction
  let (store, next) := b.store.alloc .empty
  { b with
    store := store.modify conjunction (Node.append "and" [next])
    cursor := next
    conjunction := some conjunction }

/-- Writes a node at the cursor, after what is there already. -/
def addNode (op : Operation) (fields : List (String × Json)) (b : Builder) : Builder :=
  let b := if b.here.kind.isSome then b.conjoin else b
  b.modify b.cursor fun n =>
    fields.foldl (fun n field => n.set field.1 (.value field.2)) { n with kind := some op.kind }

/-- Stores the sub-query of a field. -/
def storeQuery (op : Operation) (field : String) (b : Builder) :
    SubQuery → Except Error (Builder × Handle)
  | .following =>
    let (store, h) := b.store.alloc .empty
    .ok ({ b with store }, h)
  | .query q =>
    let (store, h) := b.store.copy q.store q.root
    .ok ({ b with store }, h)
  | .truth =>
    let (store, h) := b.store.alloc ⟨some "True", []⟩
    .ok ({ b with store }, h)
  | .json (.obj fields) =>
    let (store, h) := b.store.load fields
    .ok ({ b with store }, h)
  | .json other => .error (.parameter op.name field (.notQuery other))

/-- Gives the node at the cursor a sub-query. The cursor moves into one that is left to the
operations that follow. -/
def place (op : Operation) (field : String) (q : SubQuery) (b : Builder) :
    Except Error Builder := do
  let host := b.cursor
  let (b, h) ← b.storeQuery op field q
  let b := b.modify host (Node.set field (.query h))
  return if q.isFollowing then b.goTo h else b

/-- Writes a node that is about a query. -/
def addNodeAbout (op : Operation) (fields : List (String × Json)) (q : SubQuery) (b : Builder) :
    Except Error Builder :=
  (b.addNode op fields).place op "query" q

/-- The queries that a stored query is a combination of. -/
def combined (c : Combinator) (b : Builder) (h : Handle) : List Handle :=
  let n := b.store.node h
  if n.isKind c.kind then n.children c.key else [h]

/-- Adds a stored query to a combination. The queries of a combination of the same kind are added
one by one. -/
def push (c : Combinator) (host h : Handle) (b : Builder) : Builder :=
  b.modify host (Node.append c.key (b.combined c h))

/-- Adds sub-queries to a combination. The result names the last one that is left to the operations
that follow. -/
def pushAll (c : Combinator) (host : Handle) (chained : Option Handle) (b : Builder) :
    List SubQuery → Except Error (Builder × Option Handle)
  | [] => .ok (b, chained)
  | q :: qs => do
    let (b, h) ← b.storeQuery c.operation c.key q
    (b.push c host h).pushAll c host (if q.isFollowing then some h else chained) qs

/-- Adds sub-queries to the combination at the cursor. -/
def appendAll (c : Combinator) (qs : List SubQuery) (b : Builder) : Except Error Builder := do
  let (b, chained) ← b.pushAll c b.cursor none qs
  return chained.elim b fun h => b.goTo h

/-- The conjunction of queries. What is at the cursor becomes its first query. -/
def and (qs : List SubQuery) (b : Builder) : Except Error Builder :=
  let b :=
    if b.here.isKind "And" then b
    else if b.here.kind.isSome then b.wrap
    else { b with store := b.store.put b.cursor ⟨some "And", [("and", .queries [])]⟩ }
  { b with conjunction := none }.appendAll .and qs

/-- The disjunction of queries, after what is at the cursor. -/
def or (qs : List SubQuery) (b : Builder) : Except Error Builder :=
  let b := b.addNode .or []
  (b.modify b.cursor (Node.set "or" (.queries []))).appendAll .or qs

/-- Adds the query of another builder to a combination. -/
def pushBuilder (c : Combinator) (host : Handle) (b part : Builder) : Builder :=
  let (store, h) := b.store.copy part.store part.root
  { b with store }.push c host h

/-- Replaces the query by a combination of the queries of other builders. -/
def ofParts (c : Combinator) (parts : List Builder) (b : Builder) : Builder :=
  let emptied := { b with store := b.store.put b.root ⟨some c.kind, [(c.key, .queries [])]⟩ }
  (parts.foldl (pushBuilder c b.root) emptied).goTo b.root

/-- Both queries. -/
def both (a b : Builder) : Builder := a.cleared.ofParts .and [a, b]

/-- Either query. -/
def either (a b : Builder) : Builder := a.cleared.ofParts .or [a, b]

end Builder

end GraphQuery
