import Mathlib.Algebra.BigOperators.Group.Multiset.Basic
import Mathlib.Algebra.Order.BigOperators.Group.List
import Mathlib.Data.Multiset.OrderedMonoid
import GraphQuery.Proofs.Sketch

/-!
# Trees with handles

A plot is a tree whose nodes carry the handles they are stored under. Its cells are the nodes as a
store has them, with their handles; they are counted with repetition, so that a handle that occurs
twice shows.

Key definitions: `Plot`, `Plot.tree`, `Plot.cells`, `Plot.set`, `Plot.append`.
Key theorems: `Plot.cells_eq`, `Plot.cellsFields_insert`, `Plot.induction`, `Plot.inner_append_le`.
-/

namespace GraphQuery

/-- A tree whose nodes carry their handles. -/
inductive Plot where
  | node (handle : Handle) (kind : Option String) (fields : List (String × Branch Plot))

/-- A node as it is stored, with its handle. -/
abbrev Cell := Handle × Node

namespace Plot

def handle : Plot → Handle
  | .node handle _ _ => handle

def kind : Plot → Option String
  | .node _ kind _ => kind

def fields : Plot → Dictionary (Branch Plot)
  | .node _ _ fields => fields

/-- The root as it is stored. -/
def stored (p : Plot) : Node := ⟨p.kind, Dictionary.mapValues (Branch.map handle) p.fields⟩

mutual

/-- The tree without the handles. -/
def tree : Plot → Tree
  | .node _ kind fields => .node kind (treeFields fields)

def treeFields : List (String × Branch Plot) → List (String × Branch Tree)
  | [] => []
  | (key, branch) :: rest => (key, treeBranch branch) :: treeFields rest

def treeBranch : Branch Plot → Branch Tree
  | .value json => .value json
  | .query p => .query (tree p)
  | .queries ps => .queries (treeAll ps)

def treeAll : List Plot → List Tree
  | [] => []
  | p :: ps => tree p :: treeAll ps

end

mutual

/-- The nodes as they are stored. -/
def cells : Plot → Multiset Cell
  | .node handle kind fields => (handle, stored (.node handle kind fields)) ::ₘ cellsFields fields

def cellsFields : List (String × Branch Plot) → Multiset Cell
  | [] => 0
  | (_, branch) :: rest => cellsBranch branch + cellsFields rest

def cellsBranch : Branch Plot → Multiset Cell
  | .value _ => 0
  | .query p => cells p
  | .queries ps => cellsAll ps

def cellsAll : List Plot → Multiset Cell
  | [] => 0
  | p :: ps => cells p + cellsAll ps

end

theorem treeAll_eq_map : ∀ ps : List Plot, treeAll ps = ps.map tree
  | [] => rfl
  | p :: ps => by simp [treeAll, treeAll_eq_map ps]

theorem treeBranch_eq_map (branch : Branch Plot) : treeBranch branch = branch.map tree := by
  cases branch <;> simp [treeBranch, Branch.map, treeAll_eq_map]

theorem treeFields_eq_mapValues : ∀ fields : List (String × Branch Plot),
    treeFields fields = Dictionary.mapValues (Branch.map tree) fields
  | [] => rfl
  | (key, branch) :: rest => by
    simp [treeFields, Dictionary.mapValues, treeFields_eq_mapValues rest, treeBranch_eq_map]

theorem tree_node (h : Handle) (kind : Option String) (fields : Dictionary (Branch Plot)) :
    tree (.node h kind fields) = .node kind (Dictionary.mapValues (Branch.map tree) fields) := by
  rw [tree, treeFields_eq_mapValues]

theorem tree_eq (p : Plot) :
    p.tree = .node p.kind (Dictionary.mapValues (Branch.map tree) p.fields) := by
  cases p
  exact tree_node _ _ _

theorem tree_kind (p : Plot) : p.tree.kind = p.kind := by
  rw [tree_eq]
  rfl

theorem tree_fields (p : Plot) :
    p.tree.fields = Dictionary.mapValues (Branch.map tree) p.fields := by
  rw [tree_eq]
  rfl

/-- The cells of the sub-queries of the root. -/
def inner (p : Plot) : Multiset Cell := cellsFields p.fields

theorem cells_eq (p : Plot) : p.cells = (p.handle, p.stored) ::ₘ p.inner := by
  cases p
  simp [cells, handle, inner, fields]

theorem cellsAll_eq_sum : ∀ ps : List Plot, cellsAll ps = (ps.map cells).sum
  | [] => rfl
  | p :: ps => by simp [cellsAll, cellsAll_eq_sum ps]

theorem cellsFields_eq_sum : ∀ fields : List (String × Branch Plot),
    cellsFields fields = (fields.map fun field => cellsBranch field.2).sum
  | [] => rfl
  | (_, _) :: rest => by simp [cellsFields, cellsFields_eq_sum rest]

theorem cellsAll_append (ps qs : List Plot) : cellsAll (ps ++ qs) = cellsAll ps + cellsAll qs := by
  simp [cellsAll_eq_sum]

theorem cellsFields_perm {fields fields' : List (String × Branch Plot)}
    (perm : fields.Perm fields') : cellsFields fields = cellsFields fields' := by
  rw [cellsFields_eq_sum, cellsFields_eq_sum]
  exact (perm.map _).sum_eq

/-- Storing a field replaces the cells of the field that was there. -/
theorem cellsFields_insert {key : String} {branch : Branch Plot} {fields : Dictionary (Branch Plot)}
    (sorted : fields.Sorted) : cellsFields (fields.insert key branch) =
      cellsBranch branch + cellsFields (fields.erase key) :=
  cellsFields_perm sorted.insert_perm

theorem cellsFields_of_find? {key : String} {branch : Branch Plot}
    {fields : Dictionary (Branch Plot)} (sorted : fields.Sorted)
    (found : fields.find? key = some branch) :
    cellsFields fields = cellsBranch branch + cellsFields (fields.erase key) :=
  cellsFields_perm (sorted.perm_erase found)

theorem cellsFields_erase_le (key : String) :
    ∀ fields : Dictionary (Branch Plot), cellsFields (fields.erase key) ≤ cellsFields fields
  | [] => le_rfl
  | (k, branch) :: rest => by
    have ih := cellsFields_erase_le key rest
    by_cases same : k = key
    · have : Dictionary.erase key ((k, branch) :: rest) = Dictionary.erase key rest := by
        simp [Dictionary.erase, same]
      rw [this]
      exact ih.trans (Multiset.le_add_left _ _)
    · rw [Dictionary.erase_cons_of_ne branch rest same]
      exact add_le_add_right ih _

/-- The listed sub-queries of one field and the other fields have no cells in common. -/
theorem cells_children_add_erase_le {key : String} {fields : Dictionary (Branch Plot)}
    (sorted : fields.Sorted) :
    cellsAll (Branch.children key fields) + cellsFields (fields.erase key) ≤
      cellsFields fields := by
  unfold Branch.children
  split
  · next qs found =>
    rw [cellsFields_of_find? sorted found]
    rfl
  · simpa [cellsAll] using cellsFields_erase_le key fields

mutual

/-- What holds of a plot when it holds of its sub-queries holds of every plot. -/
theorem induction {motive : Plot → Prop}
    (step : ∀ p : Plot, (∀ field ∈ p.fields, ∀ q ∈ field.2.all, motive q) → motive p) :
    ∀ p : Plot, motive p
  | .node _ _ fields => step _ (inductionFields step fields)

theorem inductionFields {motive : Plot → Prop}
    (step : ∀ p : Plot, (∀ field ∈ p.fields, ∀ q ∈ field.2.all, motive q) → motive p) :
    ∀ fields : List (String × Branch Plot), ∀ field ∈ fields, ∀ q ∈ field.2.all, motive q
  | [] => by simp
  | (_, branch) :: rest => by
    have first := inductionBranch step branch
    have others := inductionFields step rest
    intro field mem
    rcases List.mem_cons.1 mem with rfl | mem
    · exact first
    · exact others field mem

theorem inductionBranch {motive : Plot → Prop}
    (step : ∀ p : Plot, (∀ field ∈ p.fields, ∀ q ∈ field.2.all, motive q) → motive p) :
    ∀ branch : Branch Plot, ∀ q ∈ branch.all, motive q
  | .value _ => by simp [Branch.all]
  | .query p => by simpa [Branch.all] using induction step p
  | .queries ps => by simpa [Branch.all] using inductionAll step ps

theorem inductionAll {motive : Plot → Prop}
    (step : ∀ p : Plot, (∀ field ∈ p.fields, ∀ q ∈ field.2.all, motive q) → motive p) :
    ∀ ps : List Plot, ∀ q ∈ ps, motive q
  | [] => by simp
  | p :: ps => by
    have first := induction step p
    have others := inductionAll step ps
    intro q mem
    rcases List.mem_cons.1 mem with rfl | mem
    · exact first
    · exact others q mem

end

theorem cells_le_cellsBranch {branch : Branch Plot} {q : Plot} (mem : q ∈ branch.all) :
    q.cells ≤ cellsBranch branch := by
  cases branch with
  | value json => simp [Branch.all] at mem
  | query p =>
    have : q = p := by simpa [Branch.all] using mem
    rw [this]
    exact le_rfl
  | queries ps =>
    simp only [cellsBranch, cellsAll_eq_sum]
    exact List.le_sum_of_mem (List.mem_map_of_mem mem)

/-- The cells of a sub-query are among those of the sub-queries. -/
theorem cells_le_inner {p q : Plot} {field : String × Branch Plot} (place : field ∈ p.fields)
    (mem : q ∈ field.2.all) : q.cells ≤ p.inner := by
  apply (cells_le_cellsBranch mem).trans
  rw [inner, cellsFields_eq_sum]
  exact List.le_sum_of_mem (List.mem_map_of_mem place)

/-! ### Changing the root -/

theorem fields_of_tree_empty {p : Plot} (h : p.tree = .empty) : p.kind = none ∧ p.fields = [] := by
  rw [tree_eq] at h
  injection h with kind fields
  exact ⟨kind, List.map_eq_nil_iff.1 fields⟩

/-- Gives a field of the root a new content. -/
def set (key : String) (branch : Branch Plot) (p : Plot) : Plot :=
  .node p.handle p.kind (p.fields.insert key branch)

/-- The sub-queries that the root lists under a name. -/
def children (key : String) (p : Plot) : List Plot := Branch.children key p.fields

/-- Adds sub-queries to the list under a name. -/
def append (key : String) (given : List Plot) (p : Plot) : Plot :=
  p.set key (.queries (p.children key ++ given))

/-- The queries that a query is a combination of. -/
def combined (c : Combinator) (p : Plot) : List Plot :=
  if p.kind = some c.kind then p.children c.key else [p]

section

variable (p : Plot) (c : Combinator) (key : String) (branch : Branch Plot) (given : List Plot)

theorem stored_set : (p.set key branch).stored = p.stored.set key (branch.map handle) := by
  simp [stored, set, Node.set, kind, fields, Dictionary.mapValues_insert]

theorem tree_set : (p.set key branch).tree = p.tree.set key (branch.map tree) := by
  rw [set, tree_node, Dictionary.mapValues_insert, Tree.set, tree_kind, tree_fields]

theorem inner_set (sorted : p.fields.Sorted) : (p.set key branch).inner =
    cellsBranch branch + cellsFields (p.fields.erase key) := cellsFields_insert sorted

theorem inner_set_le (sorted : p.fields.Sorted) :
    (p.set key branch).inner ≤ p.inner + cellsBranch branch := by
  rw [inner_set p key branch sorted, add_comm]
  exact add_le_add_left (cellsFields_erase_le key p.fields) _

theorem stored_children : p.stored.children key = (p.children key).map handle :=
  Branch.children_mapValues handle key p.fields

theorem tree_children : p.tree.children key = (p.children key).map tree := by
  rw [Tree.children, tree_fields]
  exact Branch.children_mapValues tree key p.fields

theorem stored_append :
    (p.append key given).stored = p.stored.append key (given.map handle) := by
  rw [append, stored_set, Node.append, stored_children, Branch.map, List.map_append]

theorem tree_append : (p.append key given).tree = p.tree.append key (given.map tree) := by
  rw [append, tree_set, Tree.append, tree_children, Branch.map, List.map_append]

/-- The cells of the sub-queries after adding some are old ones and those of the added ones. -/
theorem inner_append_le (sorted : p.fields.Sorted) :
    (p.append key given).inner ≤ p.inner + cellsAll given := by
  rw [append, inner_set _ _ _ sorted, cellsBranch, cellsAll_append, add_right_comm]
  exact add_le_add_left (cells_children_add_erase_le sorted) _

theorem stored_combined : (if p.stored.isKind c.kind then p.stored.children c.key
    else [p.handle]) = (p.combined c).map handle := by
  rw [stored_children, combined]
  by_cases same : p.kind = some c.kind <;> simp [Node.isKind, stored, same]

theorem tree_combined : p.tree.combined c = (p.combined c).map tree := by
  rw [Tree.combined, tree_kind, tree_children, combined]
  by_cases same : p.kind = some c.kind <;> simp [same]

theorem cellsAll_children_le : cellsAll (p.children key) ≤ p.inner := by
  unfold children Branch.children
  split
  · next qs found =>
    rw [inner, cellsFields_eq_sum]
    exact List.le_sum_of_mem (List.mem_map.2 ⟨_, Dictionary.mem_of_find? found, rfl⟩)
  · exact Multiset.zero_le _

/-- Gives the root a kind and plain fields. -/
def write (kind : String) (given : List (String × Json)) (p : Plot) : Plot :=
  .node p.handle (some kind) (Branch.withValues given p.fields)

theorem stored_write (kind : String) (given : List (String × Json)) : (p.write kind given).stored =
    given.foldl (fun n field => n.set field.1 (.value field.2))
      { p.stored with kind := some kind } := by
  rw [Node.foldl_set]
  simp only [stored, write, fields, Branch.mapValues_withValues]
  rfl

theorem tree_write (kind : String) (given : List (String × Json)) :
    (p.write kind given).tree = p.tree.write kind given := by
  rw [write, tree_node, Branch.mapValues_withValues, Tree.write, tree_fields]

theorem inner_write_le (kind : String) (given : List (String × Json)) (sorted : p.fields.Sorted) :
    (p.write kind given).inner ≤ p.inner := by
  show cellsFields (Branch.withValues given p.fields) ≤ cellsFields p.fields
  generalize p.fields = fields at sorted
  induction given generalizing fields with
  | nil => exact le_rfl
  | cons field given ih =>
    apply (ih _ sorted.insert).trans
    rw [cellsFields_insert sorted]
    simpa [cellsBranch] using cellsFields_erase_le field.1 fields

theorem cellsAll_combined_le : cellsAll (p.combined c) ≤ p.cells := by
  unfold combined
  by_cases same : p.kind = some c.kind
  · rw [if_pos same, cells_eq]
    exact (p.cellsAll_children_le c.key).trans (Multiset.le_cons_self _ _)
  · rw [if_neg same]
    simp [cellsAll]

end

end Plot

end GraphQuery
