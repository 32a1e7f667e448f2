import Mathlib.Data.List.Dedup
import Mathlib.Data.Multiset.Range
import GraphQuery.Proofs.Plot

/-!
# How a store holds a tree

A store shows a plot inside rings, the nodes around it, when it holds the cells of both and no
handle occurs twice. The tree of the root in the store is then the tree that the plot and the rings
make, and changing the node of the plot changes that tree in one place only. Storing a tree adds
cells under new handles.

Key definitions: `Store.Holds`, `Store.Grown`, `Ring`, `Store.Shows`.
Key theorems: `Store.plant_grown`, `Store.Shows.tree_root`, `Store.Shows.update`.
-/

namespace GraphQuery

theorem Handle.ext {h h' : Handle} (same : h.index = h'.index) : h = h' := by
  cases h
  cases h'
  simpa using same

namespace Store

/-- Every cell is in the store. -/
def Holds (s : Store) (cells : Multiset Cell) : Prop :=
  ∀ cell ∈ cells, s.nodes[cell.1.index]? = some cell.2

theorem Holds.mono {s : Store} {cells cells' : Multiset Cell} (held : s.Holds cells)
    (le : cells' ≤ cells) : s.Holds cells' := fun cell mem => held cell (Multiset.mem_of_le le mem)

theorem Holds.add {s : Store} {cells cells' : Multiset Cell} (held : s.Holds cells)
    (held' : s.Holds cells') : s.Holds (cells + cells') := by
  intro cell mem
  rcases Multiset.mem_add.1 mem with mem | mem
  · exact held cell mem
  · exact held' cell mem

theorem Holds.lt_size {s : Store} {cells : Multiset Cell} (held : s.Holds cells) {h : Handle}
    {n : Node} (mem : (h, n) ∈ cells) : h.index < s.nodes.size :=
  (Array.getElem?_eq_some_iff.1 (held _ mem)).1

theorem Holds.node_eq {s : Store} {cells : Multiset Cell} (held : s.Holds cells) {h : Handle}
    {n : Node} (mem : (h, n) ∈ cells) : s.node h = n := by
  rw [node, held _ mem]
  rfl

/-! ### A store that grows -/

/-- The second store is the first with cells added under new handles. -/
structure Grown (s s' : Store) (added : Multiset Cell) : Prop where
  kept : ∀ i < s.nodes.size, s'.nodes[i]? = s.nodes[i]?
  held : s'.Holds added
  distinct : (added.map Prod.fst).Nodup
  fresh : ∀ cell ∈ added, s.nodes.size ≤ cell.1.index

theorem Grown.refl (s : Store) : Grown s s 0 :=
  ⟨fun _ _ => rfl, by simp [Holds], by simp, by simp⟩

theorem Grown.size_le {s s' : Store} {added : Multiset Cell} (grown : Grown s s' added) :
    s.nodes.size ≤ s'.nodes.size := by
  by_contra less
  have lt : s'.nodes.size < s.nodes.size := by omega
  have kept := grown.kept _ lt
  rw [Array.getElem?_eq_none (le_refl _), Array.getElem?_eq_getElem lt] at kept
  cases kept

/-- Old cells stay where they are. -/
theorem Holds.grown {s s' : Store} {cells added : Multiset Cell} (held : s.Holds cells)
    (grown : Grown s s' added) : s'.Holds cells := by
  intro cell mem
  rw [grown.kept _ (held.lt_size mem)]
  exact held cell mem

/-- New cells have other handles than old ones. -/
theorem Holds.distinct_add {s s' : Store} {cells added : Multiset Cell} (held : s.Holds cells)
    (distinct : (cells.map Prod.fst).Nodup) (grown : Grown s s' added) :
    ((cells + added).map Prod.fst).Nodup := by
  rw [Multiset.map_add, Multiset.nodup_add]
  refine ⟨distinct, grown.distinct, ?_⟩
  rw [Multiset.disjoint_left]
  intro h old new
  obtain ⟨cell, mem, rfl⟩ := Multiset.mem_map.1 old
  obtain ⟨cell', mem', same⟩ := Multiset.mem_map.1 new
  have lt := held.lt_size mem
  have le := grown.fresh cell' mem'
  rw [same] at le
  omega

theorem Grown.trans {s s' s'' : Store} {first second : Multiset Cell} (one : Grown s s' first)
    (two : Grown s' s'' second) : Grown s s'' (first + second) where
  kept i lt := by rw [two.kept i (lt_of_lt_of_le lt one.size_le), one.kept i lt]
  held := (one.held.grown two).add two.held
  distinct := one.held.distinct_add one.distinct two
  fresh cell mem := by
    rcases Multiset.mem_add.1 mem with mem | mem
    · exact one.fresh cell mem
    · exact one.size_le.trans (two.fresh cell mem)

/-- Adding a node adds its cell. -/
theorem alloc_grown (s : Store) (n : Node) :
    Grown s (s.alloc n).1 {((s.alloc n).2, n)} where
  kept i lt := by simp [alloc, Array.getElem?_push, Nat.ne_of_lt lt]
  held cell mem := by
    rw [Multiset.mem_singleton.1 mem]
    simp [alloc]
  distinct := by simp
  fresh cell mem := by
    rw [Multiset.mem_singleton.1 mem]
    exact le_refl _

mutual

/-- **Storing a tree adds a plot of it.** -/
theorem plant_grown (s : Store) : ∀ t : Tree, ∃ p : Plot, p.tree = t ∧ p.handle = (s.plant t).2 ∧
    Grown s (s.plant t).1 p.cells
  | .node kind fields => by
    obtain ⟨planted, trees, handles, grown⟩ := plantFields_grown s fields
    refine ⟨.node (s.plant (.node kind fields)).2 kind planted, ?_, rfl, ?_⟩
    · rw [Plot.tree, trees]
    · have root := alloc_grown (s.plantFields fields).1 ⟨kind, (s.plantFields fields).2⟩
      rw [Plot.cells_eq, ← Multiset.singleton_add, add_comm]
      have stored : (Plot.node (s.plant (.node kind fields)).2 kind planted).stored =
          ⟨kind, (s.plantFields fields).2⟩ := by rw [← handles]; rfl
      rw [stored]
      exact grown.trans root

theorem plantFields_grown (s : Store) : ∀ fields : List (String × Branch Tree),
    ∃ planted : List (String × Branch Plot), Plot.treeFields planted = fields ∧
      Dictionary.mapValues (Branch.map Plot.handle) planted = (s.plantFields fields).2 ∧
      Grown s (s.plantFields fields).1 (Plot.cellsFields planted)
  | [] => ⟨[], rfl, rfl, Grown.refl s⟩
  | (key, branch) :: rest => by
    obtain ⟨first, tree, handles, grown⟩ := plantBranch_grown s branch
    obtain ⟨others, trees, handles', grown'⟩ := plantFields_grown (s.plantBranch branch).1 rest
    refine ⟨(key, first) :: others, ?_, ?_, grown.trans grown'⟩
    · rw [Plot.treeFields, tree, trees]
    · show (key, first.map Plot.handle) :: Dictionary.mapValues _ others = _
      rw [handles, handles']
      rfl

theorem plantBranch_grown (s : Store) : ∀ branch : Branch Tree, ∃ planted : Branch Plot,
    Plot.treeBranch planted = branch ∧ planted.map Plot.handle = (s.plantBranch branch).2 ∧
      Grown s (s.plantBranch branch).1 (Plot.cellsBranch planted)
  | .value json => ⟨.value json, rfl, rfl, Grown.refl s⟩
  | .query t => by
    obtain ⟨p, tree, handle, grown⟩ := plant_grown s t
    refine ⟨.query p, ?_, ?_, grown⟩
    · rw [Plot.treeBranch, tree]
    · rw [Branch.map, handle]
      rfl
  | .queries ts => by
    obtain ⟨ps, trees, handles, grown⟩ := plantAll_grown s ts
    refine ⟨.queries ps, ?_, ?_, grown⟩
    · rw [Plot.treeBranch, trees]
    · rw [Branch.map, handles]
      rfl

theorem plantAll_grown (s : Store) : ∀ ts : List Tree, ∃ ps : List Plot, Plot.treeAll ps = ts ∧
    ps.map Plot.handle = (s.plantAll ts).2 ∧ Grown s (s.plantAll ts).1 (Plot.cellsAll ps)
  | [] => ⟨[], rfl, rfl, Grown.refl s⟩
  | t :: ts => by
    obtain ⟨p, tree, handle, grown⟩ := plant_grown s t
    obtain ⟨ps, trees, handles, grown'⟩ := plantAll_grown (s.plant t).1 ts
    refine ⟨p :: ps, ?_, ?_, grown.trans grown'⟩
    · rw [Plot.treeAll, tree, trees]
    · rw [List.map_cons, handle, handles]
      rfl

end

theorem alloc_put (s : Store) (h : Handle) (n added : Node) :
    ((s.put h n).alloc added).2 = (s.alloc added).2 := by
  simp [put, alloc]

/-- What is put at a handle counts, and not what was there while a node was added. -/
theorem put_alloc_put (s : Store) (h : Handle) (n added last : Node) :
    ((s.put h n).alloc added).1.put h last = (s.alloc added).1.put h last := by
  simp only [put, alloc, Store.mk.injEq]
  refine Array.ext_getElem? fun i => ?_
  simp only [Array.getElem?_setIfInBounds, Array.getElem?_push, Array.size_push,
    Array.size_setIfInBounds]
  by_cases same : h.index = i <;> simp [same]

/-! ### The tree of a handle -/

/-- Looking as deep as there are cells finds the whole tree. -/
theorem treeTo_of_holds {s : Store} : ∀ (p : Plot) (depth : Nat), s.Holds p.cells →
    p.cells.card ≤ depth → s.treeTo depth p.handle = p.tree := by
  apply Plot.induction
  intro p ih depth held deep
  rw [Plot.cells_eq, Multiset.card_cons] at deep
  cases depth with
  | zero => omega
  | succ depth =>
    have stored : s.node p.handle = p.stored := held.node_eq (by rw [Plot.cells_eq]; simp)
    rw [treeTo, stored, Plot.tree_eq]
    simp only [Plot.stored, Dictionary.mapValues_mapValues]
    congr 1
    refine Dictionary.mapValues_congr fun field place => ?_
    rw [Function.comp_apply, Branch.map_map]
    refine Branch.map_congr fun q mem => ?_
    have le : q.cells ≤ p.inner := Plot.cells_le_inner place mem
    refine ih field place q mem depth (held.mono ?_) ?_
    · rw [Plot.cells_eq p]
      exact le.trans (Multiset.le_cons_self _ _)
    · have := Multiset.card_le_card le
      omega

/-- A store has no more cells under different handles than nodes. -/
theorem Holds.card_le {s : Store} {cells : Multiset Cell} (held : s.Holds cells)
    (distinct : (cells.map Prod.fst).Nodup) : cells.card ≤ s.nodes.size := by
  have nodup : ((cells.map Prod.fst).map Handle.index).Nodup :=
    distinct.map fun _ _ same => Handle.ext same
  have sub : (cells.map Prod.fst).map Handle.index ⊆ Multiset.range s.nodes.size := by
    intro i mem
    simp only [Multiset.map_map, Multiset.mem_map, Function.comp_apply] at mem
    obtain ⟨cell, mem, rfl⟩ := mem
    exact Multiset.mem_range.2 (held.lt_size mem)
  have le := Multiset.card_le_card ((Multiset.le_iff_subset nodup).2 sub)
  simpa using le

/-- The tree of a handle is that of the plot there. -/
theorem tree_of_holds {s : Store} {p : Plot} (held : s.Holds p.cells)
    (distinct : (p.cells.map Prod.fst).Nodup) : s.tree p.handle = p.tree :=
  treeTo_of_holds p _ held (held.card_le distinct)

/-- A tree that was stored is found under its handle. -/
theorem tree_plant (s : Store) (t : Tree) : (s.plant t).1.tree (s.plant t).2 = t := by
  obtain ⟨p, tree, handle, grown⟩ := s.plant_grown t
  rw [← handle, tree_of_holds grown.held grown.distinct, tree]

end Store

/-! ### A plot inside rings -/

/-- The cells of the queries around a gap. -/
def Gap.cells : Gap Plot → Multiset Cell
  | .single => 0
  | .among before after => Plot.cellsAll before + Plot.cellsAll after

theorem Plot.cellsBranch_fill (gap : Gap Plot) (p : Plot) :
    cellsBranch (gap.fill p) = p.cells + gap.cells := by
  cases gap with
  | single => simp [Gap.fill, Gap.cells, cellsBranch]
  | among before after =>
    simp only [Gap.fill, Gap.cells, cellsBranch, cellsAll_append, cellsAll]
    rw [add_left_comm]

/-- A node with a gap, and its handle. -/
structure Ring where
  handle : Handle
  frame : Frame Plot

namespace Ring

/-- The node with a plot in the gap. -/
def plug (ring : Ring) (p : Plot) : Plot :=
  .node ring.handle ring.frame.kind (ring.frame.filled p)

/-- The cells of the node without those in the gap, when the gap is at a handle. -/
def cells (ring : Ring) (inside : Handle) : Multiset Cell :=
  (ring.handle, ⟨ring.frame.kind, (ring.frame.map Plot.handle).filled inside⟩) ::ₘ
    (ring.frame.gap.cells + Plot.cellsFields (ring.frame.fields.erase ring.frame.key))

theorem stored_plug (ring : Ring) (p : Plot) :
    (ring.plug p).stored = ⟨ring.frame.kind, (ring.frame.map Plot.handle).filled p.handle⟩ := by
  rw [← Frame.mapValues_filled]
  rfl

theorem cells_plug {ring : Ring} (sorted : ring.frame.fields.Sorted) (p : Plot) :
    (ring.plug p).cells = ring.cells p.handle + p.cells := by
  have inner : (ring.plug p).inner = p.cells + ring.frame.gap.cells +
      Plot.cellsFields (ring.frame.fields.erase ring.frame.key) := by
    rw [← Plot.cellsBranch_fill, ← Plot.cellsFields_insert sorted]
    rfl
  rw [Plot.cells_eq, stored_plug, inner, cells, Multiset.cons_add]
  congr 1
  rw [add_assoc, add_comm]

/-- The frame without handles. -/
def outline (ring : Ring) : Frame Tree := ring.frame.map Plot.tree

theorem tree_plug (ring : Ring) (p : Plot) :
    (ring.plug p).tree = .node ring.outline.kind (ring.outline.filled p.tree) := by
  rw [plug, Plot.tree_node, Frame.mapValues_filled]
  rfl

end Ring

namespace Plot

/-- The plot inside rings, from the inside out. -/
def within (rings : List Ring) (p : Plot) : Plot := rings.foldl (fun p ring => ring.plug p) p

/-- The cells of rings around a handle. -/
def cellsAround : List Ring → Handle → Multiset Cell
  | [], _ => 0
  | ring :: rings, inside => ring.cells inside + cellsAround rings ring.handle

theorem cells_within : ∀ {rings : List Ring} (p : Plot),
    (∀ ring ∈ rings, ring.frame.fields.Sorted) →
      (p.within rings).cells = cellsAround rings p.handle + p.cells
  | [], p, _ => (zero_add _).symm
  | ring :: rings, p, sorted => by
    have ⟨first, others⟩ := List.forall_mem_cons.1 sorted
    have ih := cells_within (ring.plug p) others
    rw [show p.within (ring :: rings) = (ring.plug p).within rings from rfl, ih,
      Ring.cells_plug first, cellsAround, ← add_assoc, add_comm (ring.cells _)]
    rfl

theorem tree_within : ∀ (rings : List Ring) (p : Plot),
    (p.within rings).tree = p.tree.within (rings.map Ring.outline)
  | [], _ => rfl
  | ring :: rings, p => by
    have ih := tree_within rings (ring.plug p)
    rw [Ring.tree_plug] at ih
    exact ih

/-- The root of a plot inside rings has a handle that only the handle of the plot matters for. -/
theorem handle_within : ∀ (rings : List Ring) {p p' : Plot}, p'.handle = p.handle →
    (p'.within rings).handle = (p.within rings).handle
  | [], _, _, same => same
  | ring :: rings, p, p', _ => by
    have same : (ring.plug p').handle = (ring.plug p).handle := rfl
    exact handle_within rings same

end Plot

namespace Store

/-- The store holds a plot inside rings, under different handles. -/
structure Shows (s : Store) (root : Handle) (rings : List Ring) (p : Plot) : Prop where
  root_eq : (p.within rings).handle = root
  held : s.Holds (Plot.cellsAround rings p.handle + p.cells)
  distinct : ((Plot.cellsAround rings p.handle + p.cells).map Prod.fst).Nodup
  sortedAround : ∀ ring ∈ rings, ring.frame.fields.Sorted
  sorted : p.fields.Sorted

namespace Shows

variable {s s' : Store} {root : Handle} {rings : List Ring} {p p' : Plot}

/-- The query of a store is the tree of the plot and the rings. -/
theorem tree_root (shows_ : s.Shows root rings p) :
    s.tree root = p.tree.within (rings.map Ring.outline) := by
  have cells := Plot.cells_within p shows_.sortedAround
  rw [← shows_.root_eq, tree_of_holds (cells ▸ shows_.held) (cells ▸ shows_.distinct),
    Plot.tree_within]

theorem stored_eq (shows_ : s.Shows root rings p) : s.node p.handle = p.stored := by
  apply shows_.held.node_eq
  rw [Plot.cells_eq]
  simp

theorem lt_size (shows_ : s.Shows root rings p) : p.handle.index < s.nodes.size := by
  apply shows_.held.lt_size (n := p.stored)
  rw [Plot.cells_eq]
  simp

/-- The node around a plot may count as a ring or as part of the plot. -/
theorem plug_iff {ring : Ring} (sortedRing : ring.frame.fields.Sorted) (sorted : p.fields.Sorted) :
    s.Shows root rings (ring.plug p) ↔ s.Shows root (ring :: rings) p := by
  have cells : Plot.cellsAround rings (ring.plug p).handle + (ring.plug p).cells =
      Plot.cellsAround (ring :: rings) p.handle + p.cells := by
    rw [Ring.cells_plug sortedRing, Plot.cellsAround, ← add_assoc, add_comm (ring.cells _)]
    rfl
  constructor
  · intro h
    exact ⟨h.root_eq, cells ▸ h.held, cells ▸ h.distinct,
      List.forall_mem_cons.2 ⟨sortedRing, h.sortedAround⟩, sorted⟩
  · intro h
    exact ⟨h.root_eq, cells ▸ h.held, cells ▸ h.distinct,
      (List.forall_mem_cons.1 h.sortedAround).2, sortedRing.insert⟩

/-- Moving from a plot into a gap of its node. -/
theorem enter {key : String} {gap : Gap Plot} (shows_ : s.Shows root rings p)
    (sorted : p'.fields.Sorted) (found : p.fields.find? key = some (gap.fill p')) :
    s.Shows root (⟨p.handle, ⟨p.kind, p.fields, key, gap⟩⟩ :: rings) p' := by
  have same : p.fields.insert key (gap.fill p') = p.fields := shows_.sorted.insert_eq_self found
  have plugged : Ring.plug ⟨p.handle, ⟨p.kind, p.fields, key, gap⟩⟩ p' = p := by
    simp only [Ring.plug, Frame.filled, same]
    cases p
    rfl
  have around := shows_.sorted
  rw [← plugged] at shows_
  exact (plug_iff around sorted).1 shows_

/-- More cells elsewhere do not matter. -/
theorem grown {added : Multiset Cell} (shows_ : s.Shows root rings p) (grown : Grown s s' added) :
    s'.Shows root rings p :=
  { shows_ with held := shows_.held.grown grown }

/-- **Changing one node.** The node of a plot may get new fields, whose sub-queries are among those
it had and those that were added to the store. -/
theorem update {added : Multiset Cell} (shows_ : s.Shows root rings p) (grown : Grown s s' added)
    (handle : p'.handle = p.handle) (sorted : p'.fields.Sorted)
    (inner : p'.inner ≤ p.inner + added) :
    (s'.put p.handle p'.stored).Shows root rings p' := by
  set rest := Plot.cellsAround rings p.handle + p.inner + added with rest_def
  have all : Plot.cellsAround rings p.handle + p.cells + added =
      (p.handle, p.stored) ::ₘ rest := by
    rw [Plot.cells_eq p, Multiset.add_cons, Multiset.cons_add]
  have distinct := shows_.held.distinct_add shows_.distinct grown
  rw [all, Multiset.map_cons, Multiset.nodup_cons] at distinct
  have new : Plot.cellsAround rings p'.handle + p'.cells =
      (p.handle, p'.stored) ::ₘ (Plot.cellsAround rings p.handle + p'.inner) := by
    rw [Plot.cells_eq p', handle, Multiset.add_cons]
  have le : Plot.cellsAround rings p.handle + p'.inner ≤ rest := by
    rw [rest_def, add_assoc]
    exact add_le_add_right inner _
  have held : s'.Holds rest := by
    have old := (shows_.held.grown grown).add grown.held
    rw [all] at old
    exact old.mono (Multiset.le_cons_self _ _)
  refine ⟨?_, ?_, ?_, shows_.sortedAround, sorted⟩
  · rw [Plot.handle_within rings handle]
    exact shows_.root_eq
  · rw [new]
    intro cell mem
    rcases Multiset.mem_cons.1 mem with rfl | mem
    · have lt : p.handle.index < s'.nodes.size := lt_of_lt_of_le shows_.lt_size grown.size_le
      simp [put, lt]
    · have mem := Multiset.mem_of_le le mem
      have ne : p.handle.index ≠ cell.1.index := by
        intro same
        have again : cell.1 ∈ rest.map Prod.fst := Multiset.mem_map_of_mem Prod.fst mem
        rw [← Handle.ext same] at again
        exact distinct.1 again
      rw [put, Array.getElem?_setIfInBounds_ne ne]
      exact held cell mem
  · rw [new, Multiset.map_cons, Multiset.nodup_cons]
    have le := Multiset.map_le_map (f := Prod.fst) le
    exact ⟨fun mem => distinct.1 (Multiset.mem_of_le le mem), Multiset.nodup_of_le le distinct.2⟩

end Shows

end Store

end GraphQuery
