import GraphQuery.Query.Host
import GraphQuery.Query.Statement

/-!
# Calls

A call is an operation with its arguments, as data. Running a call changes a builder or fails
without a trace; a query is built by running calls one after another.

Key definitions: `Call`, `Call.operation`, `Builder.replace`, `Builder.run`, `Builder.runAll`,
`Reachable`.
-/

namespace GraphQuery

/-- An operation with its arguments. -/
inductive Call where
  /-- Says something of an edge, in the default graph or in the one named. -/
  | edge (kind : EdgeKind) (subject predicate object : Term) (graph : Option String)
  /-- Every edge. -/
  | star (graph : Option String)
  /-- Replaces the object of a subject and predicate. -/
  | replace (subject predicate object : Term) (graph : Option String)
  /-- A path along a pattern given as text. -/
  | path (subject : Term) (pattern : String) (object path : Term)
  /-- A path along a pattern. -/
  | along (subject : Term) (pattern : Pattern) (object path : Term)
  | size (resource : String) (amount : Term)
  | tripleCount (resource : String) (amount : Term)
  /-- An operation that only fills slots, with a term for each. -/
  | fill (op : Operation) (terms : List Term) (slotted : op.slots ≠ [])
      (complete : terms.length = op.slots.length)
  | and (queries : List SubQuery)
  | or (queries : List SubQuery)
  | about (host : Host) (query : SubQuery)
  | when (condition consequent : SubQuery)
  /-- The query that always succeeds. -/
  | truth

/-- The operation of a call. -/
def Call.operation : Call → Operation
  | edge kind _ _ _ graph => kind.operation graph.isSome
  | star _ => .star
  | replace _ _ _ none => .updateTriple
  | replace _ _ _ (some _) => .updateQuad
  | path _ _ _ _ | along _ _ _ _ => .path
  | size _ _ => .size
  | tripleCount _ _ => .tripleCount
  | fill op _ _ _ => op
  | and _ => .and
  | or _ => .or
  | about host _ => host.operation
  | when _ _ => .when
  | truth => .truth

/-- The sub-queries among the arguments of a call. -/
def Call.subQueries : Call → List SubQuery
  | and queries | or queries => queries
  | about _ query => [query]
  | when condition consequent => [condition, consequent]
  | _ => []

namespace Builder

/-- The variable of the object that is replaced. -/
def oldObject : Term := .str "v:AnyObject"

/-- The query that deletes the old object, unless it is the new one. -/
def removal (subject predicate object : Term) (graph : Option String) (b : Builder) :
    Except Error Builder := do
  let b ← b.edge .present subject predicate oldObject graph
  let b ← b.edge .delete subject predicate oldObject graph
  let b ← b.about .not .following
  b.edge .present subject predicate object graph

/-- Deletes the object that a subject and predicate have, if any, and adds the new one. -/
def replace (subject predicate object : Term) (graph : Option String) (b : Builder) :
    Except Error Builder := do
  let removal ← b.cleared.removal subject predicate object graph
  let optional ← b.cleared.about .optional (.query removal)
  let addition ← b.cleared.edge .add subject predicate object graph
  b.and [.query optional, .query addition]

/-- Runs a call. -/
def run (b : Builder) : Call → Except Error Builder
  | .edge kind subject predicate object graph => b.edge kind subject predicate object graph
  | .star graph => b.star graph
  | .replace subject predicate object graph => b.replace subject predicate object graph
  | .path subject pattern object path => b.path subject pattern object path
  | .along subject pattern object path => b.along subject pattern object path
  | .size resource amount => b.size resource amount
  | .tripleCount resource amount => b.tripleCount resource amount
  | .fill op terms _ _ => b.fill op terms
  | .and queries => b.and queries
  | .or queries => b.or queries
  | .about host query => b.about host query
  | .when condition consequent => b.when condition consequent
  | .truth => .ok (b.addNode .truth [])

/-- Runs calls one after another. -/
def runAll (b : Builder) (calls : List Call) : Except Error Builder := calls.foldlM run b

end Builder

/-- The builders that can be made from the given ones by operations whose sub-queries are such
builders too. -/
inductive Reachable (start : Builder → Prop) : Builder → Prop where
  | start {b : Builder} : start b → Reachable start b
  | cleared {b : Builder} : Reachable start b → Reachable start b.cleared
  | extendVocabulary {b : Builder} (given : List (String × String)) :
    Reachable start b → Reachable start (b.extendVocabulary given)
  | run {b after : Builder} {call : Call} : Reachable start b →
    (∀ q, SubQuery.query q ∈ call.subQueries → Reachable start q) → b.run call = .ok after →
    Reachable start after
  | both {a b : Builder} : Reachable start a → Reachable start b → Reachable start (a.both b)
  | either {a b : Builder} : Reachable start a → Reachable start b → Reachable start (a.either b)

@[simp] theorem Builder.runAll_nil (b : Builder) : b.runAll [] = .ok b := rfl

@[simp] theorem Builder.runAll_cons (b : Builder) (call : Call) (calls : List Call) :
    b.runAll (call :: calls) = (b.run call).bind fun b => b.runAll calls := rfl

end GraphQuery
