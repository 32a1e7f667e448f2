import GraphQuery.Proofs.Chaining
import GraphQuery.Proofs.NormalForm

/-!
# Combining whole queries

Two queries combine into one, in the two ways there are. A part that is such a combination already
goes in query by query, so it does not matter how several parts are grouped. The empty query stays
in the raw form of a combination, but it is not sent: in the wire form it makes no difference. The
calls that combine queries do to an empty builder what the operators do.

Key definitions: `Tree.joined`, `Builder.joined`, `Combinator.call`.
Key theorems: `Tree.joined_assoc`, `Tree.wire?_combined`, `Builder.joined_laws`.
-/

namespace GraphQuery

namespace Tree

/-- The combination of two queries. -/
def joined (c : Combinator) (t u : Tree) : Tree :=
  .node (some c.kind) [(c.key, .queries (t.combined c ++ u.combined c))]

theorem combined_joined (c : Combinator) (t u : Tree) :
    (t.joined c u).combined c = t.combined c ++ u.combined c := by
  have kind : (t.joined c u).kind = some c.kind := rfl
  rw [combined, if_pos kind]
  exact children_combination c _

theorem joined_assoc (c : Combinator) (t u v : Tree) :
    (t.joined c u).joined c v = t.joined c (u.joined c v) := by
  have left := combined_joined c t u
  have right := combined_joined c u v
  rw [joined, left, joined, right, List.append_assoc]

/-- What a query sends is what the queries send that it is a combination of. -/
theorem wire?_combined (c : Combinator) (t : Tree) :
    combine c ((t.combined c).filterMap wire?) = t.wire? := by
  by_cases kind : t.kind = some c.kind
  · rw [combined, if_pos kind, wire?_of_kind kind]
  · rw [combined, if_neg kind, List.filterMap_cons, List.filterMap_nil]
    cases t.wire? <;> rfl

theorem wire?_joined (c : Combinator) (t u : Tree) : (t.joined c u).wire? =
    combine c ((t.combined c).filterMap wire? ++ (u.combined c).filterMap wire?) := by
  have kind : (t.joined c u).kind = some c.kind := rfl
  have children : (t.joined c u).children c.key = t.combined c ++ u.combined c :=
    children_combination c _
  rw [wire?_of_kind kind, children, List.filterMap_append]

theorem filterMap_wire?_combined_empty (c : Combinator) :
    (empty.combined c).filterMap wire? = [] := by
  rw [combined_empty, List.filterMap_cons_none wire?_empty, List.filterMap_nil]

theorem wire?_empty_joined (c : Combinator) (t : Tree) : (empty.joined c t).wire? = t.wire? := by
  rw [wire?_joined, filterMap_wire?_combined_empty, List.nil_append, wire?_combined]

theorem wire?_joined_empty (c : Combinator) (t : Tree) : (t.joined c empty).wire? = t.wire? := by
  rw [wire?_joined, filterMap_wire?_combined_empty, List.append_nil, wire?_combined]

end Tree

/-- The call that combines queries. -/
def Combinator.call (qs : List SubQuery) : Combinator → Call
  | and => .and qs
  | or => .or qs

namespace Builder

/-- The query made of two queries. -/
def joined (c : Combinator) (a b : Builder) : Builder :=
  match c with
  | .and => a.both b
  | .or => a.either b

variable {a b d : Builder}

theorem Realizes.joined (c : Combinator) {j k : Sketch} (h : a.Realizes j) (h₁ : b.Realizes k) :
    (a.joined c b).Realizes (j.combination c [j.tree, k.tree]) := by
  cases c with
  | and => exact h.both h₁
  | or => exact h.either h₁

theorem Realizes.tree_joined (c : Combinator) {j k : Sketch} (h : a.Realizes j)
    (h₁ : b.Realizes k) :
    (a.joined c b).store.tree (a.joined c b).root = j.tree.joined c k.tree := by
  rw [(h.joined c h₁).tree_eq]
  have parts : [j.tree, k.tree].flatMap (Tree.combined c) =
      j.tree.combined c ++ k.tree.combined c := by
    rw [List.flatMap_cons, List.flatMap_singleton]
  show Tree.node _ _ = _
  rw [parts]
  rfl

/-- The query of a combination is the combination of the queries. -/
theorem tree_joined (c : Combinator) (reachable : Reachable Initial a)
    (reachable₁ : Reachable Initial b) : (a.joined c b).store.tree (a.joined c b).root =
      (a.store.tree a.root).joined c (b.store.tree b.root) := by
  obtain ⟨j, h⟩ := realizes_of_reachable reachable
  obtain ⟨k, h₁⟩ := realizes_of_reachable reachable₁
  rw [h.tree_joined c h₁, h.tree_eq, h₁.tree_eq]

theorem reachable_joined (c : Combinator) (reachable : Reachable Initial a)
    (reachable₁ : Reachable Initial b) : Reachable Initial (a.joined c b) := by
  cases c with
  | and => exact reachable.both reachable₁
  | or => exact reachable.either reachable₁

/-- The call that combines queries, on the empty query, makes the combination of what is given. -/
theorem run_call_given (c : Combinator) (vocabulary : Vocabulary) (expandsPaths : Bool)
    {qs : List SubQuery} {given : List Tree}
    (each : List.Forall₂ (fun q t => q.isFollowing = false ∧ q.tree c.operation c.key = .ok t) qs
      given) :
    ∃ d, (blank vocabulary expandsPaths).run (c.call qs) = .ok d ∧
      d.store.tree d.root =
        .node (some c.kind) [(c.key, .queries (given.flatMap (Tree.combined c)))] := by
  have pushed := pushAll_given c [] each
  rw [List.nil_append] at pushed
  obtain ⟨k, ran, tree⟩ : ∃ k, (Sketch.blank vocabulary expandsPaths).run (c.call qs) = .ok k ∧
      k.tree = .node (some c.kind) [(c.key, .queries (given.flatMap (Tree.combined c)))] := by
    -- Either call starts from a combination of no queries.
    have begun : (Sketch.blank vocabulary expandsPaths).run (c.call qs) =
        Sketch.appendAll c qs { Sketch.blank vocabulary expandsPaths with
          focus := .node (some c.kind) [(c.key, .queries [])] } := by
      cases c <;> rfl
    rw [begun, Sketch.appendAll]
    refine ⟨_, bind_eq_ok_iff.2 ⟨_, pushed, rfl⟩, rfl⟩
  obtain ⟨d, ran₁, h⟩ :=
    (ran ▸ (realizes_blank vocabulary expandsPaths).run (c.call qs)).exists_left
  exact ⟨d, ran₁, h.tree_eq.trans tree⟩

theorem run_call (c : Combinator) (vocabulary : Vocabulary) (expandsPaths : Bool)
    (p q : Builder) : ∃ d, (blank vocabulary expandsPaths).run (c.call [.query p, .query q]) =
      .ok d ∧ d.store.tree d.root = (p.store.tree p.root).joined c (q.store.tree q.root) := by
  obtain ⟨d, ran, tree⟩ := run_call_given c vocabulary expandsPaths (given_query c [p, q])
  refine ⟨d, ran, tree.trans ?_⟩
  simp [Tree.joined]

/-- **Combining queries is a monoid operation.** Grouping does not change the raw form of a
combination, the empty query is neutral in the wire form, and the combination of two queries is what
the call makes of them on an empty builder. -/
theorem joined_laws (c : Combinator) (reachable : Reachable Initial a)
    (reachable₁ : Reachable Initial b) (reachable₂ : Reachable Initial d) :
    ((a.joined c b).joined c d).raw = (a.joined c (b.joined c d)).raw ∧
      (fresh.joined c a).wire = a.wire ∧ (a.joined c fresh).wire = a.wire ∧
      (a.cleared.run (c.call [.query a, .query b])).map raw = .ok (a.joined c b).raw := by
  have fresh_ : Reachable Initial fresh := .start (.ofVocabulary .standard)
  have empty : fresh.store.tree fresh.root = .empty := rfl
  refine ⟨?_, ?_, ?_, ?_⟩
  · have left := tree_joined c (reachable_joined c reachable reachable₁) reachable₂
    have right := tree_joined c reachable (reachable_joined c reachable₁ reachable₂)
    rw [tree_joined c reachable reachable₁] at left
    rw [tree_joined c reachable₁ reachable₂] at right
    rw [raw, raw, Store.raw, Store.raw, left, right, Tree.joined_assoc]
  · rw [wire, wire, Tree.wire, Tree.wire, tree_joined c fresh_ reachable, empty,
      Tree.wire?_empty_joined]
  · rw [wire, wire, Tree.wire, Tree.wire, tree_joined c reachable fresh_, empty,
      Tree.wire?_joined_empty]
  · obtain ⟨made, ran, tree⟩ := run_call c a.vocabulary a.expandsPaths a b
    rw [cleared_eq_blank, ran]
    refine congrArg Except.ok ?_
    rw [raw, raw, Store.raw, Store.raw, tree, tree_joined c reachable reachable₁]

/-- A conjunction that lists nothing, a builder left inside a chained sub-query and a conjunction of
two. -/
theorem joined_laws_conjunctions : ∃ a b d, Reachable Initial a ∧ Reachable Initial b ∧
    Reachable Initial d ∧ a.raw = .obj [("@type", .str "And"), ("and", .null)] ∧
    b.raw = .obj [("@type", .str "Not"), ("query", .obj [])] ∧
    d.raw = .obj [("@type", .str "And"), ("and", .arr [.obj [("@type", .str "True")],
      .obj [("@type", .str "True")]])] ∧
    ((a.joined .and b).joined .and d).raw = .obj [("@type", .str "And"), ("and", .arr [
      .obj [("@type", .str "Not"), ("query", .obj [])], .obj [("@type", .str "True")],
      .obj [("@type", .str "True")]])] ∧
    ((a.joined .and b).joined .and d).raw = (a.joined .and (b.joined .and d)).raw ∧
    (fresh.joined .and a).wire = a.wire ∧ (a.joined .and fresh).wire = a.wire ∧
    (a.cleared.run (Combinator.and.call [.query a, .query b])).map raw =
      .ok (a.joined .and b).raw := by
  obtain ⟨a, b, d, ran, ran₁, ran₂, raw₀, raw₁, raw₂, all⟩ : ∃ a b d,
      ofJson (.obj [("@type", .str "And"), ("and", .null)]) = .ok a ∧
      fresh.run (.about .not .following) = .ok b ∧
      fresh.run (.and [.truth, .truth]) = .ok d ∧
      a.raw = .obj [("@type", .str "And"), ("and", .null)] ∧
      b.raw = .obj [("@type", .str "Not"), ("query", .obj [])] ∧
      d.raw = .obj [("@type", .str "And"), ("and", .arr [.obj [("@type", .str "True")],
        .obj [("@type", .str "True")]])] ∧
      ((a.joined .and b).joined .and d).raw = .obj [("@type", .str "And"), ("and", .arr [
        .obj [("@type", .str "Not"), ("query", .obj [])], .obj [("@type", .str "True")],
        .obj [("@type", .str "True")]])] := ⟨_, _, _, rfl, rfl, rfl, rfl, rfl, rfl, rfl⟩
  have ordered : (Json.obj [("@type", .str "And"), ("and", .null)]).Ordered := by decide
  have start : Reachable Initial fresh := .start (.ofVocabulary .standard)
  have first : Reachable Initial a := .start (.ofJson ordered ran)
  have second : Reachable Initial b := .run start (by simp [Call.subQueries]) ran₁
  have third : Reachable Initial d := .run start (by simp [Call.subQueries]) ran₂
  exact ⟨a, b, d, first, second, third, raw₀, raw₁, raw₂, all, joined_laws .and first second third⟩

end Builder

end GraphQuery
