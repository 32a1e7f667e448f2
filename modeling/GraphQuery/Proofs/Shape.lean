import Mathlib.Data.Multiset.Bind
import Mathlib.Logic.Relation
import GraphQuery.Proofs.Realization

/-!
# The shape of a store

What a builder can reach from its root is a tree: no handle is out of bounds, none leads back to
itself, and each but the root stands at exactly one place. The cursor is in the tree, and while
operations are conjoined it is the last query of the conjunction at hand. So following handles ends,
and the tree of a handle is its node with the trees of its sub-queries, however deep.

Key definitions: `Store.Place`, `Store.Refers`, `Store.IsTree`, `Builder.WellFormed`.
Key theorems: `Store.isTree_of_holds`, `Builder.wellFormed_of_reachable`.
-/

namespace GraphQuery

/-- The sub-queries of a node, in the order of its fields. -/
def Node.parts (n : Node) : List Handle := n.fields.flatMap fun field => field.2.all

namespace Store

/-- A position in a field of a node. -/
structure Place where
  node : Handle
  field : Nat
  index : Nat

/-- A handle stands at a place. -/
def At (s : Store) (place : Place) (h : Handle) : Prop :=
  ∃ field, (s.node place.node).fields[place.field]? = some field ∧
    field.2.all[place.index]? = some h

/-- A node refers to another. -/
def Refers (s : Store) (parent child : Handle) : Prop :=
  ∃ place : Place, place.node = parent ∧ s.At place child

/-- A node leads to another, or is it. -/
def Reaches (s : Store) : Handle → Handle → Prop := Relation.ReflTransGen s.Refers

/-- What the root leads to is a tree. -/
structure IsTree (s : Store) (root : Handle) : Prop where
  inBounds : ∀ h, s.Reaches root h → h.index < s.nodes.size
  /-- No node stands in itself, at any depth. -/
  acyclic : ∀ h, s.Reaches root h → ¬ Relation.TransGen s.Refers h h
  /-- The root stands nowhere. -/
  root_free : ∀ place : Place, s.Reaches root place.node → ¬ s.At place root
  /-- Every other node stands at one place. -/
  unique : ∀ h, s.Reaches root h → h ≠ root →
    ∃! place : Place, s.Reaches root place.node ∧ s.At place h

theorem refers_iff {s : Store} {parent child : Handle} :
    s.Refers parent child ↔ child ∈ (s.node parent).parts := by
  unfold Node.parts
  rw [List.mem_flatMap]
  constructor
  · rintro ⟨place, rfl, field, found, found₁⟩
    exact ⟨field, List.mem_of_getElem? found, List.mem_of_getElem? found₁⟩
  · rintro ⟨field, mem, mem₁⟩
    obtain ⟨i, found⟩ := List.mem_iff_getElem?.1 mem
    obtain ⟨j, found₁⟩ := List.mem_iff_getElem?.1 mem₁
    exact ⟨⟨parent, i, j⟩, rfl, field, found, found₁⟩

theorem At.mem_parts {s : Store} {place : Place} {h : Handle} (at_ : s.At place h) :
    h ∈ (s.node place.node).parts := refers_iff.1 ⟨place, rfl, at_⟩

/-- In a node without repeated sub-queries each stands at one place. -/
theorem At.unique {s : Store} {place place₁ : Place} {h : Handle} (at_ : s.At place h)
    (at₁ : s.At place₁ h) (same : place.node = place₁.node)
    (distinct : (s.node place.node).parts.Nodup) : place = place₁ := by
  obtain ⟨node, i, j⟩ := place
  obtain ⟨node₁, i₁, j₁⟩ := place₁
  obtain rfl : node = node₁ := same
  obtain ⟨field, found, listed⟩ := at_
  obtain ⟨field₁, found₁, listed₁⟩ := at₁
  obtain ⟨inside, across⟩ := List.nodup_flatMap.1 distinct
  have apart : ∀ {k l : Nat} {f g : String × Branch Handle}, k < l →
      (s.node node).fields[k]? = some f → (s.node node).fields[l]? = some g →
        h ∈ f.2.all → h ∉ g.2.all := by
    intro k l f g less foundF foundG
    obtain ⟨lt, rfl⟩ := List.getElem?_eq_some_iff.1 foundF
    obtain ⟨lt₁, rfl⟩ := List.getElem?_eq_some_iff.1 foundG
    exact fun mem => List.pairwise_iff_getElem.1 across k l lt lt₁ less mem
  have mem := List.mem_of_getElem? listed
  have mem₁ := List.mem_of_getElem? listed₁
  rcases Nat.lt_trichotomy i i₁ with less | rfl | less
  · exact absurd mem₁ (apart less found found₁ mem)
  · obtain rfl : field = field₁ := Option.some.inj (found.symm.trans found₁)
    obtain ⟨lt, -⟩ := List.getElem?_eq_some_iff.1 listed
    have nodup := inside field (List.mem_of_getElem? found)
    have same : j = j₁ := (List.getElem?_inj lt nodup).1 (listed.trans listed₁.symm)
    rw [same]
  · exact absurd mem (apart less found₁ found mem₁)

end Store

namespace Plot

/-- The sub-queries of the root, in the order of its fields. -/
def parts (p : Plot) : List Plot := p.fields.flatMap fun field => field.2.all

theorem stored_parts (p : Plot) : p.stored.parts = p.parts.map handle := by
  simp only [Node.parts, stored, parts, Dictionary.mapValues, List.flatMap_map, List.map_flatMap,
    Branch.all_map]

theorem cellsBranch_eq_sum (branch : Branch Plot) :
    cellsBranch branch = (branch.all.map cells).sum := by
  cases branch with
  | value json => rfl
  | query p => simp [cellsBranch, Branch.all]
  | queries ps => exact cellsAll_eq_sum ps

theorem inner_eq_sum (p : Plot) : p.inner = (p.parts.map cells).sum := by
  rw [inner, cellsFields_eq_sum, parts]
  induction p.fields with
  | nil => rfl
  | cons field rest ih =>
    rw [List.map_cons, List.sum_cons, ih, List.flatMap_cons, List.map_append, List.sum_append,
      cellsBranch_eq_sum]

/-- The sub-queries of all the nodes are the nodes but the root. -/
theorem handles_cells : ∀ p : Plot, p.cells.map Prod.fst =
    p.handle ::ₘ p.cells.bind fun cell => (cell.2.parts : Multiset Handle) := by
  apply Plot.induction
  intro p ih
  have all : ∀ ps : List Plot, (∀ q ∈ ps, q.cells.map Prod.fst =
      q.handle ::ₘ q.cells.bind fun cell => (cell.2.parts : Multiset Handle)) →
      (ps.map cells).sum.map Prod.fst = (ps.map handle : List Handle) +
        (ps.map cells).sum.bind fun cell => (cell.2.parts : Multiset Handle) := by
    intro ps
    induction ps with
    | nil => simp
    | cons q ps step =>
      intro each
      have ⟨first, others⟩ := List.forall_mem_cons.1 each
      rw [List.map_cons, List.sum_cons, Multiset.map_add, first, step others, Multiset.add_bind,
        List.map_cons, ← Multiset.cons_coe, Multiset.cons_add, Multiset.cons_add]
      congr 1
      rw [add_left_comm]
  have parts : ∀ q ∈ p.parts, q.cells.map Prod.fst =
      q.handle ::ₘ q.cells.bind fun cell => (cell.2.parts : Multiset Handle) := by
    intro q mem
    obtain ⟨field, place, mem⟩ := List.mem_flatMap.1 mem
    exact ih field place q mem
  rw [cells_eq, Multiset.map_cons, Multiset.cons_bind, inner_eq_sum, all p.parts parts,
    stored_parts]

theorem cells_le_of_mem_parts {p q : Plot} (mem : q ∈ p.parts) : q.cells ≤ p.cells := by
  obtain ⟨field, place, mem⟩ := List.mem_flatMap.1 mem
  rw [cells_eq p]
  exact (cells_le_inner place mem).trans (Multiset.le_cons_self _ _)

end Plot

namespace Store

variable {s : Store} {p : Plot}

theorem Holds.stored_eq (held : s.Holds p.cells) : s.node p.handle = p.stored :=
  held.node_eq (by rw [p.cells_eq]; simp)

/-- What a held plot leads to is held as a part of it. -/
theorem exists_plot_of_reaches {h : Handle} (held : s.Holds p.cells)
    (reaches : s.Reaches p.handle h) : ∃ q : Plot, q.handle = h ∧ q.cells ≤ p.cells := by
  induction reaches with
  | refl => exact ⟨p, rfl, le_rfl⟩
  | tail _ refers ih =>
    obtain ⟨q, rfl, le⟩ := ih
    rw [refers_iff, (held.mono le).stored_eq, q.stored_parts] at refers
    obtain ⟨part, mem, rfl⟩ := List.mem_map.1 refers
    exact ⟨part, rfl, (Plot.cells_le_of_mem_parts mem).trans le⟩

/-- Following handles from a held plot ends. -/
theorem acc_of_holds : ∀ p : Plot, s.Holds p.cells →
    Acc (fun child parent => s.Refers parent child) p.handle := by
  apply Plot.induction
  intro p ih held
  refine Acc.intro _ fun child refers => ?_
  rw [refers_iff, held.stored_eq, p.stored_parts] at refers
  obtain ⟨part, mem, rfl⟩ := List.mem_map.1 refers
  obtain ⟨field, place, mem₁⟩ := List.mem_flatMap.1 mem
  exact ih field place part mem₁ (held.mono (Plot.cells_le_of_mem_parts mem))

theorem not_transGen_of_acc {h : Handle} (acc : Acc (fun child parent => s.Refers parent child) h) :
    ¬ Relation.TransGen s.Refers h h := by
  induction acc with
  | intro h _ ih =>
    intro cycle
    obtain ⟨child, refers, back⟩ := Relation.TransGen.head'_iff.1 cycle
    exact ih child refers (Relation.TransGen.tail' back refers)

/-- A handle is a sub-query of one of the nodes whose sub-queries are all different. -/
theorem cell_unique {cells : Multiset Cell} {c c₁ : Cell} {h : Handle}
    (distinct : (cells.bind fun cell => (cell.2.parts : Multiset Handle)).Nodup) (mem : c ∈ cells)
    (mem₁ : c₁ ∈ cells) (inside : h ∈ c.2.parts) (inside₁ : h ∈ c₁.2.parts) : c = c₁ := by
  by_contra other
  obtain ⟨rest, rfl⟩ := Multiset.exists_cons_of_mem mem
  have mem₁ : c₁ ∈ rest := (Multiset.mem_cons.1 mem₁).resolve_left (Ne.symm other)
  rw [Multiset.cons_bind, Multiset.nodup_add] at distinct
  exact Multiset.disjoint_left.1 distinct.2.2 inside (Multiset.mem_bind.2 ⟨c₁, mem₁, inside₁⟩)

/-- **A plot that is held with different handles is a tree.** -/
theorem isTree_of_holds (held : s.Holds p.cells) (distinct : (p.cells.map Prod.fst).Nodup) :
    s.IsTree p.handle := by
  have handles := p.handles_cells
  rw [handles, Multiset.nodup_cons] at distinct
  obtain ⟨root_free, distinct⟩ := distinct
  have cell_of_reaches : ∀ {h : Handle}, s.Reaches p.handle h → (h, s.node h) ∈ p.cells := by
    intro h reaches
    obtain ⟨q, rfl, le⟩ := exists_plot_of_reaches held reaches
    rw [(held.mono le).stored_eq]
    apply Multiset.mem_of_le le
    rw [q.cells_eq]
    exact Multiset.mem_cons_self _ _
  refine ⟨?_, ?_, ?_, ?_⟩
  · exact fun h reaches => held.lt_size (cell_of_reaches reaches)
  · intro h reaches
    obtain ⟨q, rfl, le⟩ := exists_plot_of_reaches held reaches
    exact not_transGen_of_acc (acc_of_holds q (held.mono le))
  · intro place reaches at_
    exact root_free (Multiset.mem_bind.2 ⟨_, cell_of_reaches reaches, at_.mem_parts⟩)
  · intro h reaches other
    rcases Relation.ReflTransGen.cases_tail reaches with rfl | ⟨_, before, place, rfl, at_⟩
    · exact absurd rfl other
    refine ⟨place, ⟨before, at_⟩, ?_⟩
    rintro place₁ ⟨before₁, at₁⟩
    have mem := cell_of_reaches before
    have same := cell_unique distinct (cell_of_reaches before₁) mem at₁.mem_parts at_.mem_parts
    have nodup := (Multiset.nodup_bind.1 distinct).1 _ (cell_of_reaches before₁)
    exact at₁.unique at_ (congrArg Prod.fst same) (Multiset.coe_nodup.1 nodup)

/-- The tree of a handle is its node with the trees of its sub-queries. -/
theorem tree_eq_of_holds (held : s.Holds p.cells) (distinct : (p.cells.map Prod.fst).Nodup) :
    s.tree p.handle = .node (s.node p.handle).kind
      (Dictionary.mapValues (Branch.map s.tree) (s.node p.handle).fields) := by
  rw [tree_of_holds held distinct, held.stored_eq, p.tree_eq]
  simp only [Plot.stored, Dictionary.mapValues_mapValues]
  congr 1
  refine Dictionary.mapValues_congr fun field place => ?_
  rw [Function.comp_apply, Branch.map_map]
  refine Branch.map_congr fun q mem => ?_
  have le := Plot.cells_le_of_mem_parts (List.mem_flatMap.2 ⟨field, place, mem⟩)
  exact (tree_of_holds (held.mono le) (Multiset.nodup_of_le (Multiset.map_le_map le) distinct)).symm

/-- A plot inside rings is reached from the root. -/
theorem reaches_within : ∀ {rings : List Ring} {p : Plot},
    (∀ ring ∈ rings, ring.frame.fields.Sorted) → s.Holds (p.within rings).cells →
      s.Reaches (p.within rings).handle p.handle
  | [], _, _, _ => .refl
  | ring :: rings, p, sorted, held => by
    have ⟨_, others⟩ := List.forall_mem_cons.1 sorted
    have le : (ring.plug p).cells ≤ ((ring.plug p).within rings).cells := by
      rw [Plot.cells_within _ others]
      exact Multiset.le_add_left _ _
    have outer := reaches_within (p := ring.plug p) others held
    apply Relation.ReflTransGen.tail outer
    rw [refers_iff, (held.mono le).stored_eq, Plot.stored_parts]
    refine List.mem_map_of_mem
      (List.mem_flatMap.2 ⟨(ring.frame.key, ring.frame.gap.fill p), ?_, ?_⟩)
    · exact Dictionary.mem_of_find? (Dictionary.find?_insert_self _ _ _)
    · cases ring.frame.gap <;> simp [Gap.fill, Branch.all]

theorem Shows.within {rings : List Ring} {root : Handle} (shows_ : s.Shows root rings p) :
    s.Holds (p.within rings).cells ∧ ((p.within rings).cells.map Prod.fst).Nodup := by
  rw [Plot.cells_within p shows_.sortedAround]
  exact ⟨shows_.held, shows_.distinct⟩

end Store

namespace Builder

theorem Draws.reaches {b : Builder} {k : Sketch} {rings : List Ring} {p : Plot}
    (d : b.Draws k rings p) : b.store.Reaches b.root b.cursor := by
  have reaches := Store.reaches_within d.shows_.sortedAround d.shows_.within.1
  rwa [d.shows_.root_eq, d.cursor_eq] at reaches

/-- What holds of a builder whatever has been done. -/
structure WellFormed (b : Builder) : Prop where
  isTree : b.store.IsTree b.root
  cursor : b.store.Reaches b.root b.cursor
  /-- The conjunction at hand is in the tree, and the cursor is at its last query. -/
  conjunction : ∀ h, b.conjunction = some h → b.store.Reaches b.root h ∧
    (b.store.node h).isKind "And" ∧ ((b.store.node h).children "and").getLast? = some b.cursor
  /-- Following handles from the root ends. -/
  ends : Acc (fun child parent => b.store.Refers parent child) b.root
  /-- The tree of a node in the tree is not cut off. -/
  whole : ∀ h, b.store.Reaches b.root h → b.store.tree h = .node (b.store.node h).kind
    (Dictionary.mapValues (Branch.map b.store.tree) (b.store.node h).fields)

/-- **Every builder is well-formed.** -/
theorem wellFormed_of_reachable {b : Builder} (reachable : Reachable Initial b) :
    b.WellFormed := by
  obtain ⟨k, rings, p, d⟩ := realizes_of_reachable reachable
  obtain ⟨held, distinct⟩ := d.shows_.within
  refine ⟨?_, ?_, ?_, ?_, ?_⟩
  · rw [← d.shows_.root_eq]
    exact Store.isTree_of_holds held distinct
  · exact d.reaches
  · intro h found
    cases open_ : k.conjunction with
    | none =>
      have none := d.conjunction_eq
      rw [found, open_] at none
      cases none
    | some fields =>
      obtain ⟨ring, rest, conjunction, last, outer⟩ := d.leave open_
      obtain rfl : h = ring.handle := Option.some.inj (found.symm.trans conjunction)
      refine ⟨outer.reaches, ?_, by simpa [isLastOf] using last⟩
      have kind : (b.store.node ring.handle).kind = some "And" := outer.kind_eq
      simp [Node.isKind, kind]
  · rw [← d.shows_.root_eq]
    exact Store.acc_of_holds _ held
  · intro h reaches
    rw [← d.shows_.root_eq] at reaches
    obtain ⟨q, rfl, le⟩ := Store.exists_plot_of_reaches held reaches
    exact Store.tree_eq_of_holds (held.mono le)
      (Multiset.nodup_of_le (Multiset.map_le_map le) distinct)

/-- Two operations in a row leave the cursor at the last query of a conjunction. -/
theorem wellFormed_conjoined : ∃ b, Reachable Initial b ∧ b.conjunction = some b.root ∧
    b.WellFormed := by
  have first : (ofVocabulary .standard).run .truth =
      .ok ((ofVocabulary .standard).addNode .truth []) := rfl
  have second : ((ofVocabulary .standard).addNode .truth []).run .truth =
      .ok (((ofVocabulary .standard).addNode .truth []).addNode .truth []) := rfl
  have start : Reachable Initial (ofVocabulary .standard) := .start (.ofVocabulary _)
  have none : ∀ q, .query q ∈ Call.truth.subQueries → Reachable Initial q := by
    simp [Call.subQueries]
  have built := (start.run none first).run none second
  exact ⟨_, built, rfl, wellFormed_of_reachable built⟩

end Builder

end GraphQuery
