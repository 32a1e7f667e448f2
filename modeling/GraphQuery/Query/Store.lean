import GraphQuery.Query.Tree

/-!
# The store of nodes

A query under construction is kept in a store: an array of nodes that refer to each other by handle.
Nodes are only added; one that is no longer referred to stays where it is. What a handle stands for
is a tree, and `plant` stores a tree under a new handle.

Key definitions: `Handle`, `Node`, `Store`, `Store.tree`, `Store.plant`.
-/

namespace GraphQuery

/-- The place of a node in a store. -/
structure Handle where
  index : Nat
  deriving DecidableEq

/-- A node, whose sub-queries are in the same store. -/
structure Node where
  kind : Option String
  fields : Dictionary (Branch Handle)

namespace Node

/-- The node that says nothing. -/
def empty : Node := ⟨none, []⟩

instance : Inhabited Node := ⟨empty⟩

def isEmpty (n : Node) : Bool := n.kind.isNone && n.fields.isEmpty

def isKind (kind : String) (n : Node) : Bool := n.kind = some kind

/-- Gives a field a new content. -/
def set (key : String) (branch : Branch Handle) (n : Node) : Node :=
  { n with fields := n.fields.insert key branch }

/-- The sub-queries listed under a name. -/
def children (key : String) (n : Node) : List Handle := Branch.children key n.fields

/-- Adds sub-queries to the list under a name; anything else that was there is dropped. -/
def append (key : String) (given : List Handle) (n : Node) : Node :=
  n.set key (.queries (n.children key ++ given))

end Node

/-- Nodes by handle. -/
structure Store where
  nodes : Array Node

namespace Store

def empty : Store := ⟨#[]⟩

/-- The node of a handle. A handle of another store may stand for no node here. -/
def node (s : Store) (h : Handle) : Node := s.nodes[h.index]?.getD .empty

/-- Adds a node. -/
def alloc (s : Store) (n : Node) : Store × Handle := (⟨s.nodes.push n⟩, ⟨s.nodes.size⟩)

/-- Replaces the node of a handle. -/
def put (s : Store) (h : Handle) (n : Node) : Store := ⟨s.nodes.setIfInBounds h.index n⟩

/-- Changes the node of a handle. -/
def modify (s : Store) (h : Handle) (f : Node → Node) : Store := s.put h (f (s.node h))

/-- Moves a node to a new handle and leaves an empty one in its place. -/
def move (s : Store) (h : Handle) : Store × Handle := (s.put h .empty).alloc (s.node h)

/-- The tree of a handle, down to a given depth. -/
def treeTo (s : Store) : Nat → Handle → Tree
  | 0, _ => .empty
  | depth + 1, h =>
    .node (s.node h).kind (Dictionary.mapValues (Branch.map (s.treeTo depth)) (s.node h).fields)

/-- The tree of a handle. Without cycles no path is longer than there are nodes. -/
def tree (s : Store) (h : Handle) : Tree := s.treeTo s.nodes.size h

mutual

/-- Stores a tree, its sub-queries first. -/
def plant (s : Store) : Tree → Store × Handle
  | .node kind fields =>
    let (grown, planted) := plantFields s fields
    grown.alloc ⟨kind, planted⟩

def plantFields (s : Store) : List (String × Branch Tree) → Store × List (String × Branch Handle)
  | [] => (s, [])
  | (key, branch) :: rest =>
    let (grown, first) := plantBranch s branch
    let (grown, others) := plantFields grown rest
    (grown, (key, first) :: others)

def plantBranch (s : Store) : Branch Tree → Store × Branch Handle
  | .value json => (s, .value json)
  | .query q =>
    let (grown, h) := plant s q
    (grown, .query h)
  | .queries qs =>
    let (grown, hs) := plantAll s qs
    (grown, .queries hs)

def plantAll (s : Store) : List Tree → Store × List Handle
  | [] => (s, [])
  | q :: qs =>
    let (grown, h) := plant s q
    let (grown, hs) := plantAll grown qs
    (grown, h :: hs)

end

/-- Copies a tree of another store. -/
def copy (s other : Store) (h : Handle) : Store × Handle := s.plant (other.tree h)

/-- Stores the query that an object is. -/
def load (s : Store) (fields : Dictionary Json) : Store × Handle := s.plant (.ofFields fields)

/-- The raw form of the query of a handle. -/
def raw (s : Store) (h : Handle) : Json := (s.tree h).raw

/-- The wire form of the query of a handle, if anything remains. -/
def wire? (s : Store) (h : Handle) : Option Json := (s.tree h).wire?

@[simp] theorem node_alloc_self (s : Store) (n : Node) : (s.alloc n).1.node (s.alloc n).2 = n := by
  simp [alloc, node]

/-- Adding a node leaves the others alone. -/
theorem node_alloc_of_lt {s : Store} {n : Node} {h : Handle} (lt : h.index < s.nodes.size) :
    (s.alloc n).1.node h = s.node h := by
  simp [alloc, node, Array.getElem?_push, Nat.ne_of_lt lt]

@[simp] theorem node_put_self {s : Store} {n : Node} {h : Handle} (lt : h.index < s.nodes.size) :
    (s.put h n).node h = n := by
  simp [put, node, lt]

/-- Replacing one node leaves the others alone. -/
theorem node_put_of_ne {s : Store} {n : Node} {h other : Handle} (ne : other ≠ h) :
    (s.put h n).node other = s.node other := by
  have : h.index ≠ other.index := by
    rintro same
    exact ne (by cases h; cases other; simp_all)
  simp [put, node, this]

end Store

end GraphQuery
