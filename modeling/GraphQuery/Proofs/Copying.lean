import Mathlib.Data.Finset.Card
import GraphQuery.Proofs.Shape

/-!
# Copies of queries

A query of a builder is copied into another store node by node, sub-queries first, and each node of
the copy is a new one. So the copy has the same raw form and the same wire form, what was in the
store stays as it was, and the copy shares nothing with it. A query that was in the store keeps its
forms, although the depth to which its tree is looked up grows with the store: a tree that is
nowhere cut off is the same at any greater depth.

Key definitions: `Store.copyFields`, `Store.Grounded`, `Store.IsCopy`.
Key theorems: `Store.copy_eq`, `Store.treeTo_eq_of_card_le`, `Store.Grounded.tree_eq`,
`Store.copy_faithful`.
-/

namespace GraphQuery

namespace Store

/-! ### Copying node by node -/

/-- Copies queries one after another. -/
def copyAll (other s : Store) : List Handle → Store × List Handle
  | [] => (s, [])
  | h :: hs =>
    let (grown, first) := s.copy other h
    let (grown, others) := copyAll other grown hs
    (grown, first :: others)

/-- Copies the content of a field. -/
def copyBranch (other s : Store) : Branch Handle → Store × Branch Handle
  | .value json => (s, .value json)
  | .query h =>
    let (grown, copied) := s.copy other h
    (grown, .query copied)
  | .queries hs =>
    let (grown, copied) := copyAll other s hs
    (grown, .queries copied)

/-- Copies the fields of a node one after another. -/
def copyFields (other s : Store) : Dictionary (Branch Handle) → Store × Dictionary (Branch Handle)
  | [] => (s, [])
  | (key, branch) :: rest =>
    let (grown, first) := copyBranch other s branch
    let (grown, others) := copyFields other grown rest
    (grown, (key, first) :: others)

theorem plantAll_map (other : Store) : ∀ (s : Store) (hs : List Handle),
    s.plantAll (hs.map other.tree) = copyAll other s hs
  | _, [] => rfl
  | s, h :: hs => by
    have ih : ∀ s, plantAll s (hs.map other.tree) = copyAll other s hs :=
      fun s => plantAll_map other s hs
    simp only [List.map_cons, plantAll, copyAll, copy, ih]

theorem plantBranch_map (other s : Store) (branch : Branch Handle) :
    s.plantBranch (branch.map other.tree) = copyBranch other s branch := by
  cases branch with
  | value json => rfl
  | query h => rfl
  | queries hs =>
    rw [Branch.map, plantBranch, plantAll_map]
    rfl

theorem plantFields_mapValues (other : Store) : ∀ (s : Store) (fields : Dictionary (Branch Handle)),
    s.plantFields (Dictionary.mapValues (Branch.map other.tree) fields) =
      copyFields other s fields
  | _, [] => rfl
  | s, (key, branch) :: rest => by
    have ih := fun s => plantFields_mapValues other s rest
    unfold Dictionary.mapValues at ih ⊢
    simp only [List.map_cons, plantFields, copyFields, plantBranch_map, ih]

/-- **Copying goes node by node.** Where the tree of a handle is not cut off, its copy is a new node
of the same kind, with copies of the fields. -/
theorem copy_eq (s : Store) {other : Store} {h : Handle}
    (whole : other.tree h = .node (other.node h).kind
      (Dictionary.mapValues (Branch.map other.tree) (other.node h).fields)) :
    s.copy other h = (copyFields other s (other.node h).fields).1.alloc
      ⟨(other.node h).kind, (copyFields other s (other.node h).fields).2⟩ := by
  rw [copy, whole, plant, plantFields_mapValues]

/-! ### Queries that were there -/

/-- What a handle leads to is in the store, and nothing in it leads back to itself. -/
def Grounded (s : Store) (h : Handle) : Prop :=
  ∀ h', s.Reaches h h' → h'.index < s.nodes.size ∧ ¬ Relation.TransGen s.Refers h' h'

variable {s s' : Store} {h : Handle}

theorem IsTree.grounded (tree : s.IsTree h) : s.Grounded h := fun h' reaches =>
  ⟨tree.inBounds h' reaches, tree.acyclic h' reaches⟩

theorem refers_of_mem {field : String × Branch Handle} {child : Handle}
    (place : field ∈ (s.node h).fields) (mem : child ∈ field.2.all) : s.Refers h child :=
  refers_iff.2 (List.mem_flatMap.2 ⟨field, place, mem⟩)

/-- Looking as deep as there are nodes finds the whole tree. On the way down every node is met for
the first time, so those that may still follow are one less at each step. -/
theorem treeTo_eq_of_card_le : ∀ {depth depth₁ : Nat} {h : Handle} {nodes : Finset Nat},
    (∀ h', s.Reaches h h' → h'.index ∈ nodes ∧ ¬ Relation.TransGen s.Refers h' h') →
      nodes.card ≤ depth → depth ≤ depth₁ → s.treeTo depth₁ h = s.treeTo depth h
  | 0, _, h, nodes, inside, few, _ => by
    have here : h.index ∈ nodes := (inside h .refl).1
    rw [Finset.card_eq_zero.1 (Nat.le_zero.1 few)] at here
    cases here
  | depth + 1, 0, _, _, _, _, deeper => by omega
  | depth + 1, depth₁ + 1, h, nodes, inside, few, deeper => by
    obtain ⟨here, acyclic⟩ := inside h .refl
    have fewer : (nodes.erase h.index).card ≤ depth := by
      rw [Finset.card_erase_of_mem here]
      omega
    rw [treeTo, treeTo]
    congr 1
    refine Dictionary.mapValues_congr fun field place => Branch.map_congr fun child mem => ?_
    have refers := refers_of_mem place mem
    refine treeTo_eq_of_card_le (fun h' reaches => ?_) fewer (Nat.le_of_succ_le_succ deeper)
    obtain ⟨listed, acyclic'⟩ := inside h' (.head refers reaches)
    refine ⟨Finset.mem_erase.2 ⟨fun same => acyclic ?_, listed⟩, acyclic'⟩
    obtain rfl : h' = h := Handle.ext same
    exact Relation.TransGen.head' refers reaches

/-- Only the nodes that a handle leads to matter for its tree. -/
theorem treeTo_congr : ∀ (depth : Nat) {h : Handle},
    (∀ h', s.Reaches h h' → s'.node h' = s.node h') → s'.treeTo depth h = s.treeTo depth h
  | 0, _, _ => rfl
  | depth + 1, h, kept => by
    rw [treeTo, treeTo, kept h .refl]
    congr 1
    refine Dictionary.mapValues_congr fun field place => Branch.map_congr fun child mem => ?_
    exact treeTo_congr depth fun h' reaches => kept h' (.head (refers_of_mem place mem) reaches)

/-- In a larger store with the same nodes the tree of a handle is the same. -/
theorem Grounded.tree_eq (grounded : s.Grounded h)
    (kept : ∀ old : Handle, old.index < s.nodes.size → s'.node old = s.node old)
    (larger : s.nodes.size ≤ s'.nodes.size) : s'.tree h = s.tree h := by
  have inside : ∀ h', s.Reaches h h' →
      h'.index ∈ Finset.range s.nodes.size ∧ ¬ Relation.TransGen s.Refers h' h' :=
    fun h' reaches => (grounded h' reaches).imp_left Finset.mem_range.2
  calc s'.treeTo s'.nodes.size h
      = s.treeTo s'.nodes.size h := treeTo_congr _ fun h' reaches => kept h' (grounded h' reaches).1
    _ = s.treeTo s.nodes.size h := treeTo_eq_of_card_le inside (by simp) larger

/-! ### The copy -/

/-- A store has grown by a copy of a query of another one. -/
structure IsCopy (s other : Store) (h : Handle) (grown : Store) (copied : Handle) : Prop where
  raw_eq : grown.raw copied = other.raw h
  wire?_eq : grown.wire? copied = other.wire? h
  /-- The nodes that were there are left alone. -/
  kept : ∀ old : Handle, old.index < s.nodes.size → grown.node old = s.node old
  /-- So are the queries that were there. -/
  kept_forms : ∀ old, s.Grounded old → grown.raw old = s.raw old ∧ grown.wire? old = s.wire? old
  /-- All nodes of the copy are new. -/
  added : ∀ h', grown.Reaches copied h' → s.nodes.size ≤ h'.index ∧ h'.index < grown.nodes.size

/-- Copying leaves what was there and shares nothing with it. -/
theorem isCopy_copy (s other : Store) (h : Handle) :
    s.IsCopy other h (s.copy other h).1 (s.copy other h).2 := by
  have tree : (s.copy other h).1.tree (s.copy other h).2 = other.tree h :=
    s.tree_plant (other.tree h)
  obtain ⟨p, -, root, grown⟩ := s.plant_grown (other.tree h)
  have kept : ∀ old : Handle, old.index < s.nodes.size →
      (s.copy other h).1.node old = s.node old := by
    intro old lt
    have found : (s.copy other h).1.nodes[old.index]? = s.nodes[old.index]? := grown.kept _ lt
    rw [node, found, node]
  refine ⟨congrArg Tree.raw tree, congrArg Tree.wire? tree, kept, fun old grounded => ?_, ?_⟩
  · have same := grounded.tree_eq kept grown.size_le
    exact ⟨congrArg Tree.raw same, congrArg Tree.wire? same⟩
  · intro h' reaches
    have reaches : (s.copy other h).1.Reaches p.handle h' := root ▸ reaches
    obtain ⟨q, rfl, le⟩ := exists_plot_of_reaches grown.held reaches
    have mem : (q.handle, q.stored) ∈ p.cells := by
      refine Multiset.mem_of_le le ?_
      rw [q.cells_eq]
      exact Multiset.mem_cons_self _ _
    exact ⟨grown.fresh _ mem, grown.held.lt_size mem⟩

/-- **A copy is faithful and on its own.** It is made node by node, and the store has grown by a
copy of the query. -/
theorem copy_faithful {b : Builder} (reachable : Reachable Builder.Initial b) {h : Handle}
    (reaches : b.store.Reaches b.root h) (s : Store) :
    s.copy b.store h = (copyFields b.store s (b.store.node h).fields).1.alloc
        ⟨(b.store.node h).kind, (copyFields b.store s (b.store.node h).fields).2⟩ ∧
      s.IsCopy b.store h (s.copy b.store h).1 (s.copy b.store h).2 :=
  ⟨s.copy_eq ((Builder.wellFormed_of_reachable reachable).whole h reaches),
    s.isCopy_copy b.store h⟩

/-- A negation is copied into a store with an empty query, which stays as it is. -/
theorem copy_faithful_negation : ∃ (b : Builder) (grown : Store) (copied : Handle),
    Reachable Builder.Initial b ∧ b.store.Reaches b.root b.root ∧
    Builder.fresh.store.copy b.store b.root = (grown, copied) ∧
    Builder.fresh.store.IsCopy b.store b.root grown copied ∧
    grown.raw copied = .obj [("@type", .str "Not"), ("query", .obj [("@type", .str "True")])] ∧
    Builder.fresh.store.Grounded Builder.fresh.root ∧
    grown.raw Builder.fresh.root = .obj [] := by
  have start : Reachable Builder.Initial Builder.fresh := .start (.ofVocabulary .standard)
  obtain ⟨a, ran⟩ : ∃ a, Builder.fresh.run .truth = .ok a := ⟨_, rfl⟩
  have inner : Reachable Builder.Initial a := .run start (by simp [Call.subQueries]) ran
  obtain ⟨b, ran₁⟩ : ∃ b, Builder.fresh.run (.about .not (.query a)) = .ok b := ⟨_, rfl⟩
  have outer : Reachable Builder.Initial b :=
    .run start (by simpa [Call.subQueries] using inner) ran₁
  have raw : b.raw = .obj [("@type", .str "Not"), ("query", .obj [("@type", .str "True")])] := by
    cases ran
    cases ran₁
    rfl
  have copied := (copy_faithful outer .refl Builder.fresh.store).2
  have grounded := (Builder.wellFormed_of_reachable start).isTree.grounded
  exact ⟨b, _, _, outer, .refl, rfl, copied, copied.raw_eq.trans raw, grounded,
    (copied.kept_forms _ grounded).1⟩

end Store

end GraphQuery
