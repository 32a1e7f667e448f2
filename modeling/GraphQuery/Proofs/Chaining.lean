import GraphQuery.Proofs.Realization

/-!
# Chaining into a sub-query

A sub-query that is left to the operations that follow comes out as if it had been built on its own,
by the same operations, and then passed. Chaining opens a gap; what follows happens inside the gap
and does not depend on what is around.

Key definitions: `Hosting`, `Step`, `Builder.follow`.
Key theorems: `Sketch.opens_hosting`, `Builder.follow_chained`.
-/

namespace GraphQuery

/-- An operation about a query, with its other arguments. -/
inductive Hosting where
  | about (host : Host)
  | whenCondition (consequent : SubQuery)
  | whenConsequent (condition : SubQuery)

/-- The call of the operation for a query. -/
def Hosting.call : Hosting → SubQuery → Call
  | about host, q => .about host q
  | whenCondition consequent, q => .when q consequent
  | whenConsequent condition, q => .when condition q

/-- What is done to a builder at a time. -/
inductive Step where
  | call (call : Call)
  | extendVocabulary (given : List (String × String))

namespace Sketch

def step (k : Sketch) : Step → Except Error Sketch
  | .call call => k.run call
  | .extendVocabulary given => .ok { k with vocabulary := k.vocabulary.extend given }

/-- Does one thing after another. -/
def follow (k : Sketch) (steps : List Step) : Except Error Sketch := steps.foldlM step k

theorem run_within (outer : List (Frame Tree)) (k : Sketch) (call : Call) :
    (k.within outer).run call = (k.run call).map (within outer) := by
  have same : (k.within outer).run call =
      (call.edit k.vocabulary k.expandsPaths).bind (k.within outer).perform := rfl
  rw [same, run]
  cases call.edit k.vocabulary k.expandsPaths with
  | error e => rfl
  | ok e => exact perform_within outer k e

theorem step_within (outer : List (Frame Tree)) (k : Sketch) (step : Step) :
    (k.within outer).step step = (k.step step).map (within outer) := by
  cases step with
  | call call => exact run_within outer k call
  | extendVocabulary given => rfl

/-- What follows does not depend on what is around. -/
theorem follow_within (outer : List (Frame Tree)) (steps : List Step) : ∀ k : Sketch,
    (k.within outer).follow steps = (k.follow steps).map (within outer) := by
  induction steps with
  | nil => exact fun _ => rfl
  | cons step steps ih =>
    intro k
    unfold follow at ih ⊢
    rw [List.foldlM_cons, List.foldlM_cons, step_within]
    cases k.step step with
    | error e => rfl
    | ok k => exact ih k

theorem descend_eq_within (k : Sketch) (key : String) (gap : Gap Tree) :
    k.descend key gap = (blank k.vocabulary k.expandsPaths).within
      (⟨k.focus.kind, k.focus.fields, key, gap⟩ :: k.path) := rfl

theorem write_settings (op : Operation) (fields : List (String × Json)) (k : Sketch) :
    (k.write op fields).vocabulary = k.vocabulary ∧
      (k.write op fields).expandsPaths = k.expandsPaths := by
  unfold write
  by_cases taken : k.focus.kind.isSome
  · simp only [taken, if_true]
    exact ⟨rfl, rfl⟩
  · simp only [taken]
    exact ⟨rfl, rfl⟩

theorem appendAll_settings {k after : Sketch} {c : Combinator} {qs : List SubQuery}
    (ran : k.appendAll c qs = .ok after) :
    after.vocabulary = k.vocabulary ∧ after.expandsPaths = k.expandsPaths := by
  obtain ⟨⟨t, gap⟩, -, built⟩ := bind_eq_ok_iff.1 ran
  cases gap <;> cases built <;> exact ⟨rfl, rfl⟩

/-- An edit leaves the settings as they are. -/
theorem perform_settings {k after : Sketch} {e : Edit} (ran : k.perform e = .ok after) :
    after.vocabulary = k.vocabulary ∧ after.expandsPaths = k.expandsPaths := by
  cases e with
  | write op fields =>
    cases ran
    exact k.write_settings op fields
  | host op fields q =>
    obtain ⟨t, -, rfl⟩ := host_eq_ok_iff.1 ran
    have written := k.write_settings op fields
    by_cases following : q.isFollowing
    · simp only [if_pos following]
      exact written
    · simp only [if_neg following]
      exact written
  | when condition consequent =>
    obtain ⟨-, query, next, -, -, rfl⟩ := when_eq_ok_iff.1 ran
    have written := k.write_settings .when []
    by_cases later : consequent.isFollowing
    · simp only [if_pos later]
      exact written
    · by_cases sooner : condition.isFollowing
      · simp only [if_neg later, if_pos sooner]
        exact written
      · simp only [if_neg later, if_neg sooner]
        exact written
  | and qs =>
    have ran : k.beginAnd.appendAll .and qs = .ok after := ran
    have kept := appendAll_settings ran
    exact kept
  | or qs =>
    have ran : k.beginOr.appendAll .or qs = .ok after := ran
    have written := k.write_settings .or []
    have kept := appendAll_settings ran
    exact ⟨kept.1.trans written.1, kept.2.trans written.2⟩

/-- An operation about a query leaves the empty query in a gap when the query is chained, and has a
finished query stand there. -/
def Opens (k : Sketch) (operation : SubQuery → Except Error Sketch) : Prop :=
  ∃ outer, operation .following = .ok ((blank k.vocabulary k.expandsPaths).within outer) ∧
    ∀ q : Builder, ∃ j, operation (.query q) = .ok j ∧
      j.tree = (q.store.tree q.root).within outer

/-- What is placed in a field of the node that an operation writes can be placed there later. -/
theorem opens_of_write {k : Sketch} (op : Operation) (fields : List (String × Json)) (key : String)
    (focus : Tree → Tree) {operation : SubQuery → Except Error Sketch}
    (later : ∀ t, (focus .empty).set key (.query t) = focus t)
    (chained : operation .following =
      .ok (({ k.write op fields with focus := focus .empty } : Sketch).descend key .single))
    (finished : ∀ q : Builder, operation (.query q) =
      .ok { k.write op fields with focus := focus (q.store.tree q.root) }) :
    k.Opens operation := by
  obtain ⟨vocabulary, expandsPaths⟩ := k.write_settings op fields
  refine ⟨⟨(focus .empty).kind, (focus .empty).fields, key, .single⟩ :: (k.write op fields).path,
    ?_, ?_⟩
  · rw [chained, descend_eq_within]
    simp only [vocabulary, expandsPaths]
    rfl
  · intro q
    refine ⟨_, finished q, ?_⟩
    have tree := later (q.store.tree q.root)
    rw [Sketch.tree, ← tree]
    rfl

theorem opens_host (k : Sketch) (op : Operation) (fields : List (String × Json)) :
    k.Opens (k.host op fields) :=
  opens_of_write op fields "query" (fun t => (k.write op fields).focus.set "query" (.query t))
    (fun _ => Tree.set_set _ _ _ _) rfl fun _ => rfl

theorem opens_when_condition {k o : Sketch} {consequent : SubQuery}
    (opened : k.when .following consequent = .ok o) :
    k.Opens fun q => k.when q consequent := by
  obtain ⟨notBoth, -, next, -, found, -⟩ := when_eq_ok_iff.1 opened
  have given : consequent.isFollowing = false := notBoth
  refine opens_of_write .when [] "query" (fun t =>
    ((k.write .when []).focus.set "query" (.query t)).set "consequent" (.query next)) ?_ ?_ ?_
  · intro t
    have less : "consequent" < "query" := by decide
    rw [← Tree.set_comm less, Tree.set_set, Tree.set_comm less]
  · refine when_eq_ok_iff.2 ⟨notBoth, .empty, next, rfl, found, ?_⟩
    simp only [given]
    rfl
  · intro q
    refine when_eq_ok_iff.2 ⟨rfl, q.store.tree q.root, next, rfl, found, ?_⟩
    simp only [given]
    rfl

theorem opens_when_consequent {k o : Sketch} {condition : SubQuery}
    (opened : k.when condition .following = .ok o) :
    k.Opens fun q => k.when condition q := by
  obtain ⟨notBoth, query, -, found, -, -⟩ := when_eq_ok_iff.1 opened
  have given : condition.isFollowing = false := by simpa [SubQuery.isFollowing] using notBoth
  refine opens_of_write .when [] "consequent" (fun t =>
    ((k.write .when []).focus.set "query" (.query query)).set "consequent" (.query t)) ?_ ?_ ?_
  · exact fun t => Tree.set_set _ _ _ _
  · exact when_eq_ok_iff.2 ⟨notBoth, query, .empty, found, rfl, rfl⟩
  · intro q
    refine when_eq_ok_iff.2 ⟨by rw [given]; rfl, query, q.store.tree q.root, found, rfl, ?_⟩
    simp only [given]
    rfl

theorem opens_hosting {k o : Sketch} {H : Hosting} (opened : k.run (H.call .following) = .ok o) :
    k.Opens fun q => k.run (H.call q) := by
  cases H with
  | about host =>
    simp only [Hosting.call, run, Call.edit] at opened ⊢
    cases found : host.fields k.vocabulary with
    | error e =>
      rw [found] at opened
      cases opened
    | ok fields => exact opens_host k host.operation fields
  | whenCondition consequent => exact opens_when_condition opened
  | whenConsequent condition => exact opens_when_consequent opened

end Sketch

namespace Builder

def step (b : Builder) : Step → Except Error Builder
  | .call call => b.run call
  | .extendVocabulary given => .ok (b.extendVocabulary given)

/-- Does one thing after another. -/
def follow (b : Builder) (steps : List Step) : Except Error Builder := steps.foldlM step b

variable {b : Builder} {k : Sketch}

theorem Realizes.step (h : b.Realizes k) (step : Step) :
    Agrees Realizes (b.step step) (k.step step) := by
  cases step with
  | call call => exact h.run call
  | extendVocabulary given => exact .ok (h.extendVocabulary given)

theorem Realizes.follow (steps : List Step) : ∀ {b : Builder} {k : Sketch}, b.Realizes k →
    Agrees Realizes (b.follow steps) (k.follow steps) := by
  induction steps with
  | nil => exact fun h => .ok h
  | cons step steps ih =>
    intro b k h
    unfold Builder.follow Sketch.follow at ih ⊢
    rw [List.foldlM_cons, List.foldlM_cons]
    exact (h.step step).bind fun _ _ => ih

/-- **Chaining into a sub-query is passing it prebuilt.** After an operation about a chained query,
doing some steps gives the same query, or the same error, as passing to that operation what the
steps make of an empty builder with the same settings. -/
theorem follow_chained (reachable : Reachable Initial b) {H : Hosting} {opened : Builder}
    (ran : b.run (H.call .following) = .ok opened) (steps : List Step) :
    (opened.follow steps).map raw =
      (b.cleared.follow steps).bind fun q => (b.run (H.call (.query q))).map raw := by
  obtain ⟨k, h⟩ := realizes_of_reachable reachable
  obtain ⟨o, ran₁, h₁⟩ := (ran ▸ h.run (H.call .following)).exists_right
  obtain ⟨outer, chained, finished⟩ := Sketch.opens_hosting ran₁
  obtain rfl : o = _ := Except.ok.inj (ran₁.symm.trans chained)
  have cleared : b.cleared.Realizes (.blank k.vocabulary k.expandsPaths) := by
    rw [cleared_eq_blank, h.vocabulary_eq, h.expandsPaths_eq]
    exact realizes_blank _ _
  have inside := h₁.follow steps
  have alone := cleared.follow steps
  rw [Sketch.follow_within] at inside
  cases followed : (Sketch.blank k.vocabulary k.expandsPaths).follow steps with
  | error e =>
    rw [followed] at inside alone
    rw [inside.eq_error, alone.eq_error]
    rfl
  | ok j =>
    rw [followed] at inside alone
    obtain ⟨o, same, h₂⟩ := inside.exists_left
    obtain ⟨q, built, h₃⟩ := alone.exists_left
    obtain ⟨j₁, ran₂, tree⟩ := finished q
    have ran₂ : k.run (H.call (.query q)) = .ok j₁ := ran₂
    obtain ⟨after, passed, h₄⟩ := (ran₂ ▸ h.run (H.call (.query q))).exists_left
    rw [same, built, Except.bind, passed, Except.map, Except.map, h₂.raw_eq, h₄.raw_eq, tree,
      h₃.tree_eq, Sketch.tree_within]

/-- A negation of two operations, the second with a chained query of its own. -/
theorem follow_chained_not :
    Reachable Initial (ofVocabulary .standard) ∧ ∃ opened steps,
      (ofVocabulary .standard).run (.about .not .following) = .ok opened ∧
        steps = [.call .truth, .call (.about .optional .following), .call .truth] ∧
        (opened.follow steps).map raw =
          .ok (.obj [("@type", .str "Not"), ("query", .obj [("@type", .str "And"),
            ("and", .arr [.obj [("@type", .str "True")], .obj [("@type", .str "Optional"),
              ("query", .obj [("@type", .str "True")])]])])]) ∧
        (opened.follow steps).map raw =
          ((ofVocabulary .standard).cleared.follow steps).bind fun q =>
            ((ofVocabulary .standard).run (.about .not (.query q))).map raw := by
  have start : Reachable Initial (ofVocabulary .standard) := .start (.ofVocabulary _)
  exact ⟨start, _, _, rfl, rfl, rfl, follow_chained (H := .about .not) start rfl _⟩

end Builder

end GraphQuery
