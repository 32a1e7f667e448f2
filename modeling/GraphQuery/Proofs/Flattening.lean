import GraphQuery.Proofs.Combination
import GraphQuery.Proofs.ScannedNodes

/-!
# Finished queries in a combination

A finished query goes into a combination as it is, unless it is a combination of the same kind. Then
only the queries go in that it is read to list: an array is read as a list of queries when it holds
objects only, and the other fields of the query are left behind. So the updates of the result are
those of the finished queries but for the ones that a combination of the same kind has elsewhere.

Key definitions: `Json.KeepsUpdate`.
Key theorems: `Tree.any_combined_ofFields_iff`, `Builder.run_call_hasUpdate_iff`.
-/

namespace GraphQuery

/-- If an object is a combination of the given kind, there is an update in its list of queries. -/
def Json.KeepsUpdate (c : Combinator) (fields : Dictionary Json) : Prop :=
  Json.kindOf fields = some c.kind → ∃ items, Dictionary.find? c.key fields = some (.arr items) ∧
    items.all Json.isObject = true ∧ ∃ item ∈ items, hasUpdate item = true

namespace Tree

/-- A field other than the kind is read by itself. -/
theorem find?_ofFieldList (kind : Option String) {key : String} (ne : key ≠ "@type") :
    ∀ fields : Dictionary Json, Dictionary.find? key (ofFieldList kind fields) =
      (Dictionary.find? key fields).map (ofField kind key)
  | [] => rfl
  | (k, json) :: rest => by
    have ih := find?_ofFieldList kind ne rest
    rw [ofFieldList]
    by_cases type : k = "@type"
    · have other : key ≠ k := fun same => ne (same.trans type)
      rw [if_pos type, ih, Dictionary.find?, if_neg other]
    · rw [if_neg type, Dictionary.find?, Dictionary.find?]
      by_cases same : key = k
      · rw [if_pos same, if_pos same, same]
        rfl
      · rw [if_neg same, if_neg same, ih]

theorem any_hasUpdate_ofItems (items : List Json) :
    (ofItems items).any hasUpdate = items.any GraphQuery.hasUpdate := by
  have same := anyHasUpdate_ofItems items
  rw [anyHasUpdate_eq_any, anyHasUpdate_eq_any, rawAll_eq_map, List.any_map] at same
  exact same

/-- The queries that a combination is read to list have an update when it keeps one. -/
theorem any_children_ofFields_iff {c : Combinator} {fields : Dictionary Json}
    (kind : Json.kindOf fields = some c.kind) :
    ((ofFields fields).children c.key).any hasUpdate = true ↔ Json.KeepsUpdate c fields := by
  have ne : c.key ≠ "@type" := by
    cases c <;> decide
  have holds : holdsQueries (Json.kindOf fields) c.key = true := by
    rw [kind]
    exact holdsQueries_combinator c
  have none : ∀ {content : Option Json}, Dictionary.find? c.key fields = content →
      (∀ items, content = some (.arr items) → items.all Json.isObject = false) →
      ¬Json.KeepsUpdate c fields := by
    intro content found mixed keeps
    obtain ⟨items, list, objects, -⟩ := keeps kind
    rw [mixed items (found.symm.trans list)] at objects
    cases objects
  show (Branch.children c.key (ofFieldList (Json.kindOf fields) fields)).any hasUpdate = true ↔ _
  rw [Branch.children, find?_ofFieldList _ ne]
  cases found : Dictionary.find? c.key fields with
  | none => simpa using none found (by simp)
  | some json =>
    cases json with
    | arr items =>
      by_cases objects : items.all Json.isObject = true
      · rw [Option.map_some, ofField_arr holds objects]
        show (ofItems items).any hasUpdate = true ↔ _
        rw [any_hasUpdate_ofItems, List.any_eq_true]
        constructor
        · exact fun update _ => ⟨items, found, objects, update⟩
        · intro keeps
          obtain ⟨items₁, list, -, update⟩ := keeps kind
          cases found.symm.trans list
          exact update
      · have plain : ofField (Json.kindOf fields) c.key (.arr items) = .value (.arr items) := by
          rw [ofField, if_neg (by simp [objects])]
        rw [Option.map_some, plain]
        refine iff_of_false (by simp) (none found fun items₁ same => ?_)
        cases same
        simpa using objects
    | obj inner =>
      rw [Option.map_some, ofField_obj holds]
      exact iff_of_false (by simp) (none found (by simp))
    | _ => exact iff_of_false (by simp [ofField]) (none found (by simp))

/-- **What goes into a combination has the updates of the object that are kept.** -/
theorem any_combined_ofFields_iff (c : Combinator) (fields : Dictionary Json) :
    ((ofFields fields).combined c).any hasUpdate = true ↔
      GraphQuery.hasUpdate (.obj fields) = true ∧ Json.KeepsUpdate c fields := by
  have own : (ofFields fields).kind = Json.kindOf fields := rfl
  rw [combined, own]
  by_cases kind : Json.kindOf fields = some c.kind
  · rw [if_pos kind, any_children_ofFields_iff kind]
    refine ⟨fun keeps => ⟨?_, keeps⟩, And.right⟩
    -- The scan of the object looks into its list.
    obtain ⟨items, list, -, item, mem, update⟩ := keeps kind
    have inList : (c.key, .arr items) ∈ fields := Dictionary.mem_of_find? list
    exact Json.hasUpdate_obj_iff.2 (.inr ⟨item, .inr ⟨c, items, inList, mem⟩, update⟩)
  · have keeps : Json.KeepsUpdate c fields := fun same => absurd same kind
    rw [if_neg kind, List.any_cons, List.any_nil, Bool.or_false, hasUpdate_ofFields]
    exact (and_iff_left keeps).symm

end Tree

namespace Builder

/-- Objects are given. -/
theorem given_json (c : Combinator) (objects : List (Dictionary Json)) :
    List.Forall₂ (fun q t => q.isFollowing = false ∧ q.tree c.operation c.key = .ok t)
      (objects.map fun fields => SubQuery.json (.obj fields)) (objects.map Tree.ofFields) :=
  List.forall₂_map_left_iff.2 (List.forall₂_map_right_iff.2
    (List.forall₂_same.2 fun _ _ => ⟨rfl, rfl⟩))

/-- **A combination of objects has an update exactly when one of them keeps one.** An object that is
a combination of the same kind keeps those in its list of queries, any other object all it has. -/
theorem run_call_hasUpdate_iff (c : Combinator) (vocabulary : Vocabulary) (expandsPaths : Bool)
    (objects : List (Dictionary Json)) : ∃ b,
      (blank vocabulary expandsPaths).run
        (c.call (objects.map fun fields => .json (.obj fields))) = .ok b ∧
      (b.hasUpdate = true ↔ ∃ fields ∈ objects,
        GraphQuery.hasUpdate (.obj fields) = true ∧ Json.KeepsUpdate c fields) := by
  obtain ⟨b, ran, tree⟩ := run_call_given c vocabulary expandsPaths (given_json c objects)
  refine ⟨b, ran, ?_⟩
  have scanned : b.hasUpdate = (b.store.tree b.root).hasUpdate := rfl
  rw [scanned, tree, Tree.hasUpdate_combination, List.any_flatMap, List.any_map, List.any_eq_true]
  simp only [Function.comp_apply, Tree.any_combined_ofFields_iff]

/-- A conjunction that lists something else than an object loses its updates in a conjunction. -/
theorem run_and_loses_update : ∃ fields b,
    fields = [("@type", .str "And"), ("and", .arr [.obj [("@type", .str "AddTriple")], .null])] ∧
    fresh.run (.and [.json (.obj fields)]) = .ok b ∧
    GraphQuery.hasUpdate (.obj fields) = true ∧ b.hasUpdate = false := ⟨_, _, rfl, rfl, rfl, rfl⟩

end Builder

end GraphQuery
