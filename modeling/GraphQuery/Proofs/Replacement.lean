import GraphQuery.Proofs.Attribution
import GraphQuery.Proofs.Continuation
import GraphQuery.Proofs.EmptyConjunction

/-!
# The query that replaces an object

A replacement adds two queries to the conjunction at hand. The first one is optional: it looks for
the edge to the old object and deletes it, unless it is the edge to the new one. The second one adds
that edge. The four edges are made of the same subject and predicate.

Key definitions: `EdgeKind.node`, `Tree.removal`, `Tree.optionalRemoval`.
Key theorems: `Builder.tree_of_removal`, `Builder.trees_of_replacement`,
`Builder.cursor_of_replace`.
-/

namespace GraphQuery

/-- The node that says something of an edge with given fields. -/
def EdgeKind.node (kind : EdgeKind) (named : Bool) (fields : List (String × Json)) : Tree :=
  Tree.empty.write (kind.operation named).kind fields

theorem EdgeKind.node_kind_ne (kind : EdgeKind) (named : Bool) (fields : List (String × Json))
    (c : Combinator) : (kind.node named fields).kind ≠ some c.kind := fun same =>
  Operation.kind_ne_combinator (kind.isSimple_operation named) c (Option.some.inj same)

theorem EdgeKind.combined_node (kind : EdgeKind) (named : Bool) (fields : List (String × Json))
    (c : Combinator) : (kind.node named fields).combined c = [kind.node named fields] :=
  if_neg (kind.node_kind_ne named fields c)

namespace Tree

/-- The query that deletes the old edge, unless the new one is there. -/
def removal (named : Bool) (old new : List (String × Json)) : Tree :=
  .node (some "And") [("and", .queries [EdgeKind.present.node named old,
    EdgeKind.delete.node named old,
    .node (some "Not") [("query", .query (EdgeKind.present.node named new))]])]

/-- The removal, if there is something to remove. -/
def optionalRemoval (named : Bool) (old new : List (String × Json)) : Tree :=
  .node (some "Optional") [("query", .query (removal named old new))]

theorem combined_optionalRemoval (named : Bool) (old new : List (String × Json)) :
    (optionalRemoval named old new).combined .and = [optionalRemoval named old new] :=
  if_neg fun same => absurd (Option.some.inj same) (by decide)

end Tree

namespace Sketch

/-- A node that is written in a conjunction of queries comes after them. -/
theorem write_after {k : Sketch} {ts : List Tree}
    (opened : k.conjunction = some [("and", .queries ts)]) (taken : k.focus.kind.isSome = true)
    (op : Operation) (fields : List (String × Json)) : k.write op fields =
      { k with
        conjunction := some [("and", .queries (ts ++ [k.focus]))]
        focus := Tree.empty.write op.kind fields } := by
  have fields₁ : k.openConjunction.fields = [("and", .queries (ts ++ [k.focus]))] := by
    rw [openConjunction, opened]
    exact Frame.filled_conjunction ts k.focus
  rw [write_eq_free, free, if_pos taken, conjoin, fields₁]

/-- A node that is written after a query that is no conjunction is conjoined with it. -/
theorem write_second {k : Sketch} (closed : k.conjunction = none)
    (taken : k.focus.kind.isSome = true) (other : k.focus.kind ≠ some "And") (op : Operation)
    (fields : List (String × Json)) : k.write op fields =
      { k with
        conjunction := some [("and", .queries [k.focus])]
        focus := Tree.empty.write op.kind fields } := by
  have conjoined : k.openConjunction = .node (some "And") [("and", .queries [k.focus])] := by
    rw [openConjunction, closed]
    exact if_neg other
  rw [write_eq_free, free, if_pos taken, conjoin, conjoined]
  rfl

/-- The old edge was found and deleted, and what follows is negated. -/
def refusing (vocabulary : Vocabulary) (expandsPaths named : Bool) (old : List (String × Json)) :
    Sketch :=
  { blank vocabulary expandsPaths with
    frames := [⟨some "Not", [("query", .query .empty)], "query", .single⟩,
      .conjunction [("and", .queries [EdgeKind.present.node named old,
        EdgeKind.delete.node named old])]] }

/-- The two edges are conjoined, and the negation comes after them. -/
theorem host_not_of_edges (vocabulary : Vocabulary) (expandsPaths named : Bool)
    (old : List (String × Json)) :
    (((blank vocabulary expandsPaths).write (EdgeKind.present.operation named) old).write
        (EdgeKind.delete.operation named) old).host .not [] .following =
      .ok (refusing vocabulary expandsPaths named old) := by
  obtain ⟨found, same⟩ : ∃ found : Sketch, found = { blank vocabulary expandsPaths with
    focus := EdgeKind.present.node named old } := ⟨_, rfl⟩
  have second : found.write (EdgeKind.delete.operation named) old =
      { found with
        conjunction := some [("and", .queries [found.focus])]
        focus := EdgeKind.delete.node named old } := by
    have other : found.focus.kind ≠ some "And" :=
      same ▸ EdgeKind.present.node_kind_ne named old .and
    exact write_second (by rw [same]; rfl) (by rw [same]; rfl) other _ _
  have third := write_after (k := { found with
    conjunction := some [("and", .queries [found.focus])]
    focus := EdgeKind.delete.node named old }) rfl rfl .not []
  have first : (blank vocabulary expandsPaths).write (EdgeKind.present.operation named) old =
    found := same.symm
  rw [first, second]
  refine host_eq_ok_iff.2 ⟨.empty, rfl, ?_⟩
  rw [third, same]
  rfl

/-- The edge that follows is negated. -/
theorem tree_refusing (vocabulary : Vocabulary) (expandsPaths named : Bool)
    (old new : List (String × Json)) :
    ((refusing vocabulary expandsPaths named old).write (EdgeKind.present.operation named)
      new).tree = .removal named old new := by
  have negated : Frame.filled ⟨some "Not", [("query", .query .empty)], "query", .single⟩
      (EdgeKind.present.node named new) =
      [("query", .query (EdgeKind.present.node named new))] := by
    simp [Frame.filled, Gap.fill]
  have listed := Frame.filled_conjunction [EdgeKind.present.node named old,
    EdgeKind.delete.node named old]
    (.node (some "Not") [("query", .query (EdgeKind.present.node named new))])
  show Tree.node (some "And") (Frame.filled _
    (.node _ (Frame.filled _ (EdgeKind.present.node named new)))) = _
  rw [negated, listed]
  rfl

end Sketch

namespace Builder

variable {b after : Builder} {k : Sketch} {vocabulary : Vocabulary} {expandsPaths : Bool}
  {subject predicate object : Term} {graph : Option String}

/-- An edge is written as one node. -/
theorem Realizes.edge (h : b.Realizes k) {kind : EdgeKind}
    (ran : b.edge kind subject predicate object graph = .ok after) : ∃ fields,
      edgeFields k.vocabulary (kind.operation graph.isSome) subject predicate object graph =
        .ok fields ∧
      after.Realizes (k.write (kind.operation graph.isSome) fields) := by
  obtain ⟨fields, found, same⟩ := bind_eq_ok_iff.1 ran
  cases same
  obtain ⟨rings, p, d⟩ := h
  exact ⟨fields, d.vocabulary_eq ▸ found, d.addNode _ fields⟩

/-- The first part of a replacement, but for its being optional. -/
theorem tree_of_removal (ran : (blank vocabulary expandsPaths).removal subject predicate object
    graph = .ok after) : ∃ old new,
      edgeFields vocabulary (EdgeKind.present.operation graph.isSome) subject predicate oldObject
        graph = .ok old ∧
      edgeFields vocabulary (EdgeKind.present.operation graph.isSome) subject predicate object
        graph = .ok new ∧
      after.store.tree after.root = .removal graph.isSome old new := by
  obtain ⟨b₁, ran₁, ran⟩ := bind_eq_ok_iff.1 ran
  obtain ⟨b₂, ran₂, ran⟩ := bind_eq_ok_iff.1 ran
  obtain ⟨b₃, ran₃, ran⟩ := bind_eq_ok_iff.1 ran
  obtain ⟨old, found, h₁⟩ := (realizes_blank vocabulary expandsPaths).edge ran₁
  obtain ⟨old₁, found₁, h₂⟩ := h₁.edge ran₂
  -- What is deleted is what was found.
  obtain rfl : old = old₁ := Except.ok.inj ((edgeFields_agnostic found _).symm.trans found₁)
  have negated := h₂.perform (.host .not [] .following)
  have ran₃ : b₂.perform (.host .not [] .following) = .ok b₃ := ran₃
  rw [ran₃] at negated
  obtain ⟨k₃, wrote, h₃⟩ := negated.exists_right
  obtain rfl := Except.ok.inj ((Sketch.host_not_of_edges _ _ _ _).symm.trans wrote)
  obtain ⟨new, found₂, h₄⟩ := h₃.edge ran
  refine ⟨old, new, found, found₂, ?_⟩
  rw [h₄.tree_eq, Sketch.tree_refusing]

/-- **The two parts of a replacement.** -/
theorem trees_of_replacement {parts : Builder × Builder} (found : replacement vocabulary
    expandsPaths subject predicate object graph = .ok parts) : ∃ old new,
      edgeFields vocabulary (EdgeKind.present.operation graph.isSome) subject predicate oldObject
        graph = .ok old ∧
      edgeFields vocabulary (EdgeKind.add.operation graph.isSome) subject predicate object
        graph = .ok new ∧
      parts.1.store.tree parts.1.root = .optionalRemoval graph.isSome old new ∧
      parts.2.store.tree parts.2.root = EdgeKind.add.node graph.isSome new := by
  obtain ⟨removal, ran, found⟩ := bind_eq_ok_iff.1 found
  obtain ⟨optional, ran₁, found⟩ := bind_eq_ok_iff.1 found
  obtain ⟨addition, ran₂, same⟩ := bind_eq_ok_iff.1 found
  cases same
  obtain ⟨old, new, found, found₁, tree⟩ := tree_of_removal ran
  obtain ⟨new₁, found₂, h⟩ := (realizes_blank vocabulary expandsPaths).edge ran₂
  -- What is added is what is not to be deleted.
  obtain rfl : new = new₁ := Except.ok.inj ((edgeFields_agnostic found₁ _).symm.trans found₂)
  have start := realizes_blank vocabulary expandsPaths
  have made := start.run (.about .optional (.query removal))
  have ran₁ : (blank vocabulary expandsPaths).run (.about .optional (.query removal)) =
    .ok optional := ran₁
  rw [ran₁] at made
  obtain ⟨k, ran₃, h₁⟩ := made.exists_right
  cases ran₃
  refine ⟨old, new, found, found₂, ?_, h.tree_eq⟩
  rw [h₁.tree_eq]
  exact congrArg (fun t => Tree.node (some "Optional") [("query", .query t)]) tree

/-- **A replacement ends a conjunction at the cursor.** -/
theorem cursor_of_replace (h : b.Realizes k)
    (ran : b.replace subject predicate object graph = .ok after) : ∃ (t : Tree) (old new : _),
      edgeFields k.vocabulary (EdgeKind.present.operation graph.isSome) subject predicate oldObject
        graph = .ok old ∧
      edgeFields k.vocabulary (EdgeKind.add.operation graph.isSome) subject predicate object
        graph = .ok new ∧
      t.kind = some "And" ∧ after.store.tree after.cursor = t.append "and"
        [.optionalRemoval graph.isSome old new, EdgeKind.add.node graph.isSome new] := by
  have ran : b.run (.replace subject predicate object graph) = .ok after := ran
  rw [run_eq_perform] at ran
  obtain ⟨e, found, ran⟩ := bind_eq_ok_iff.1 ran
  obtain ⟨parts, replaced, rfl⟩ := map_eq_ok_iff.1 found
  obtain ⟨old, new, found₁, found₂, optional, addition⟩ := trees_of_replacement replaced
  obtain ⟨k₁, wrote, h₁⟩ := (ran ▸ h.perform (.and [.query parts.1, .query parts.2])).exists_right
  obtain rfl := Except.ok.inj wrote
  refine ⟨k.beginAnd.focus, old, new, h.vocabulary_eq ▸ found₁, h.vocabulary_eq ▸ found₂,
    k.beginAnd_kind, ?_⟩
  rw [h₁.tree_cursor]
  show (k.beginAnd.focus.append "and" ((parts.1.store.tree parts.1.root).combined .and)).append
    "and" ((parts.2.store.tree parts.2.root).combined .and) = _
  rw [optional, addition, Tree.combined_optionalRemoval, EdgeKind.combined_node,
    Tree.append_append]
  rfl

end Builder

end GraphQuery
