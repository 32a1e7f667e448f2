import GraphQuery.Proofs.Preservation

/-!
# When a query has an update

A query has an update exactly when one of the operations executed in it changes the data, at any
depth of sub-queries. Every operation keeps the query sound, and adds an update exactly when it
changes the data or one of its sub-queries has an update.

Key definitions: `Builder.Sound`, `Executed`.
Key theorems: `Builder.Sound.run`, `Builder.hasUpdate_iff`.
-/

namespace GraphQuery

namespace Builder

/-- A builder that realizes a sound sketch. -/
def Sound (b : Builder) : Prop := ∃ k, b.Realizes k ∧ k.Sound

theorem Realizes.hasUpdate_eq {b : Builder} {k : Sketch} (h : b.Realizes k) :
    b.hasUpdate = k.tree.hasUpdate := by
  rw [hasUpdate, h.raw_eq]
  rfl

/-- The second builder is sound and has an update if the first has one or one is gained. -/
def Gains (b : Builder) (gained : Bool) (after : Builder) : Prop :=
  after.Sound ∧ after.hasUpdate = (b.hasUpdate || gained)

theorem sound_blank (vocabulary : Vocabulary) (expandsPaths : Bool) :
    (blank vocabulary expandsPaths).Sound :=
  ⟨_, realizes_blank vocabulary expandsPaths, .nil, by simp [Sketch.blank], .empty⟩

theorem hasUpdate_blank (vocabulary : Vocabulary) (expandsPaths : Bool) :
    (blank vocabulary expandsPaths).hasUpdate = false := by
  rw [(realizes_blank vocabulary expandsPaths).hasUpdate_eq]
  rfl

variable {b after : Builder}

/-- A query that a sound builder made is a sound sub-query. -/
theorem Sound.subQuery {q : Builder} (h : q.Sound) : (SubQuery.query q).Sound := by
  obtain ⟨k, realizes, sound⟩ := h
  intro op field t found
  obtain rfl : q.store.tree q.root = t := Except.ok.inj found
  rw [realizes.tree_eq, SubQuery.hasUpdate, realizes.hasUpdate_eq]
  exact ⟨sound.tree, rfl⟩

theorem sound_following : SubQuery.following.Sound := by
  intro op field t found
  cases found
  exact ⟨.empty, rfl⟩

theorem sound_truth : SubQuery.truth.Sound := by
  intro op field t found
  cases found
  have simple : Operation.truth.isSimple := rfl
  have none : PlainFields [] := by simp [PlainFields]
  exact Tree.built_write (Operation.kind_ne_combinator simple) none

theorem Sound.perform (h : b.Sound) {e : Edit} (plain : e.Plain)
    (sound : ∀ q ∈ e.subQueries, q.Sound) (ran : b.perform e = .ok after) :
    b.Gains e.hasUpdate after := by
  obtain ⟨k, realizes, sound_k⟩ := h
  obtain ⟨k₁, ran₁, realizes₁⟩ := (ran ▸ realizes.perform e).exists_right
  obtain ⟨sound₁, update⟩ := sound_k.perform plain sound ran₁
  refine ⟨⟨k₁, realizes₁, sound₁⟩, ?_⟩
  rw [realizes₁.hasUpdate_eq, update, realizes.hasUpdate_eq]

/-- Edits keep soundness. -/
theorem kept_sound : KeptByEdits Sound SubQuery.Sound where
  blank := sound_blank
  query := Sound.subQuery
  following := sound_following
  perform := fun h plain sound ran => (h.perform plain sound ran).1

/-- A call that writes one node gains an update if its operation changes the data or a sub-query
brings one. -/
theorem Sound.run_single (h : b.Sound) {call : Call} (single : call.operation.isComposite = false)
    (sound : ∀ q ∈ call.subQueries, q.Sound) (ran : b.run call = .ok after) :
    b.Gains (call.operation.isUpdate || call.subQueries.any SubQuery.hasUpdate) after := by
  rw [run_eq_perform] at ran
  obtain ⟨e, found, ran⟩ := bind_eq_ok_iff.1 ran
  obtain ⟨plain, same, update⟩ := edit_plain single found
  rw [← update]
  exact h.perform plain (same ▸ sound) ran

/-! ### Replacing an object -/

theorem Sound.edge (h : b.Sound) (kind : EdgeKind) (subject predicate object : Term)
    (graph : Option String) : Yields (b.edge kind subject predicate object graph)
      fun after => b.Gains (kind.operation graph.isSome).isUpdate after := by
  intro after ran
  have gains := h.run_single (single_edge _ _ _ _ _) (by simp [Call.subQueries]) ran
  simpa [Call.subQueries, Call.operation] using gains

/-- The second part of a replacement adds an edge. -/
theorem replacement_adds (vocabulary : Vocabulary) (expandsPaths : Bool)
    (subject predicate object : Term) (graph : Option String) :
    Yields (replacement vocabulary expandsPaths subject predicate object graph)
      fun parts => parts.2.hasUpdate = true := by
  have blank := sound_blank vocabulary expandsPaths
  refine .bind fun removal _ => .bind fun optional _ => .bind fun addition ran => .ok ?_
  have adds := blank.edge _ _ _ _ _ addition ran
  have isUpdate : ∀ named, (EdgeKind.add.operation named).isUpdate = true := by decide
  rw [adds.2, isUpdate, Bool.or_true]

/-- **A call gains an update exactly when its operation changes the data or a sub-query has
one.** -/
theorem Sound.run (h : b.Sound) {call : Call} (sound : ∀ q ∈ call.subQueries, q.Sound)
    (ran : b.run call = .ok after) :
    b.Gains (call.operation.isUpdate || call.subQueries.any SubQuery.hasUpdate) after := by
  rcases single_or_replace call with single | ⟨subject, predicate, object, graph, rfl⟩
  · exact h.run_single single sound ran
  · rw [run_eq_perform] at ran
    obtain ⟨e, found, ran⟩ := bind_eq_ok_iff.1 ran
    obtain ⟨parts, replaced, rfl⟩ := map_eq_ok_iff.1 found
    obtain ⟨first, second⟩ := kept_sound.replacement _ _ _ _ _ _ parts replaced
    have update := replacement_adds _ _ _ _ _ _ parts replaced
    have isUpdate : (Call.replace subject predicate object graph).operation.isUpdate = true := by
      cases graph with
      | none => exact (by decide : Operation.updateTriple.isUpdate = true)
      | some graph => exact (by decide : Operation.updateQuad.isUpdate = true)
    have sound : ∀ q ∈ (Edit.and [.query parts.1, .query parts.2]).subQueries, q.Sound := by
      simp [Edit.subQueries, first.subQuery, second.subQuery]
    have gains := h.perform (e := .and [.query parts.1, .query parts.2]) trivial sound ran
    simpa [Edit.hasUpdate, SubQuery.hasUpdate, update, isUpdate] using gains

/-- A call gains an update exactly when its operation or one executed in a sub-query changes the
data. -/
theorem Sound.run_logged (h : b.Sound) {call : Call} {inner : List (SubQuery × List Operation)}
    (same : inner.map Prod.fst = call.subQueries)
    (each : ∀ part ∈ inner, part.1.Sound ∧ part.1.hasUpdate = part.2.any Operation.isUpdate)
    (ran : b.run call = .ok after) : b.Gains (call.operation.isUpdate ||
      (inner.flatMap Prod.snd).any Operation.isUpdate) after := by
  have sound : ∀ q ∈ call.subQueries, q.Sound := by
    rw [← same]
    exact List.forall_mem_map.2 fun part mem => (each part mem).1
  have gained : call.subQueries.any SubQuery.hasUpdate =
      (inner.flatMap Prod.snd).any Operation.isUpdate := by
    rw [← same, List.any_map, List.any_flatMap, Bool.eq_iff_iff, List.any_eq_true, List.any_eq_true]
    refine exists_congr fun part => and_congr_right fun mem => ?_
    rw [Function.comp_apply, (each part mem).2]
  rw [← gained]
  exact h.run sound ran

theorem Sound.extendVocabulary (h : b.Sound) (given : List (String × String)) :
    b.Gains false (b.extendVocabulary given) := by
  obtain ⟨k, realizes, sound⟩ := h
  refine ⟨⟨_, realizes.extendVocabulary given, sound.frames, sound.conjunction, sound.focus⟩, ?_⟩
  rw [Bool.or_false]
  rfl

/-- A combination of two builders has the updates of both. -/
theorem gains_combination {a : Builder} {c : Combinator} {j k k₁ : Sketch} (ha : a.Realizes j)
    (hb : b.Realizes k) (sound_a : j.Sound) (sound_b : k.Sound)
    (h : after.Realizes (k₁.combination c [j.tree, k.tree])) : a.Gains b.hasUpdate after := by
  obtain ⟨built_a, update_a⟩ := sound_a.tree.combined c
  obtain ⟨built_b, update_b⟩ := sound_b.tree.combined c
  have built : ∀ t ∈ [j.tree, k.tree].flatMap (Tree.combined c), t.Built := by
    intro t mem
    simp only [List.flatMap_cons, List.flatMap_nil, List.append_nil] at mem
    rcases List.mem_append.1 mem with mem | mem
    · exact built_a t mem
    · exact built_b t mem
  have tree : (k₁.combination c [j.tree, k.tree]).tree =
      .node (some c.kind) [(c.key, .queries ([j.tree, k.tree].flatMap (Tree.combined c)))] := rfl
  refine ⟨⟨_, h, .nil, by simp [Sketch.combination, Sketch.blank], .combination c built⟩, ?_⟩
  rw [h.hasUpdate_eq, tree, Tree.hasUpdate_combination, ha.hasUpdate_eq, hb.hasUpdate_eq]
  simp [update_a, update_b]

theorem Sound.both {a : Builder} (h : a.Sound) (h₁ : b.Sound) : a.Gains b.hasUpdate (a.both b) := by
  obtain ⟨j, ha, sound_a⟩ := h
  obtain ⟨k, hb, sound_b⟩ := h₁
  exact gains_combination ha hb sound_a sound_b (ha.both hb)

theorem Sound.either {a : Builder} (h : a.Sound) (h₁ : b.Sound) :
    a.Gains b.hasUpdate (a.either b) := by
  obtain ⟨j, ha, sound_a⟩ := h
  obtain ⟨k, hb, sound_b⟩ := h₁
  exact gains_combination ha hb sound_a sound_b (ha.either hb)

end Builder

/-! ### The operations executed -/

/-- A builder that was made without finished queries, and the operations executed in it. Those of a
sub-query count where it is passed. -/
inductive Executed : Builder → List Operation → Prop where
  | ofVocabulary (vocabulary : Vocabulary) : Executed (.ofVocabulary vocabulary) []
  | ofConfig (config : Config) : Executed (.ofConfig config) []
  | cleared {b : Builder} {ops : List Operation} : Executed b ops → Executed b.cleared []
  | extendVocabulary {b : Builder} {ops : List Operation} (given : List (String × String)) :
    Executed b ops → Executed (b.extendVocabulary given) ops
  | run {b after : Builder} {call : Call} {ops : List Operation}
    {inner : List (SubQuery × List Operation)} : Executed b ops →
    inner.map Prod.fst = call.subQueries →
    (∀ json ops, (.json json, ops) ∉ inner) →
    (∀ ops, (.following, ops) ∈ inner ∨ (.truth, ops) ∈ inner → ops = []) →
    (∀ q ops, (.query q, ops) ∈ inner → Executed q ops) →
    b.run call = .ok after → Executed after (ops ++ call.operation :: inner.flatMap Prod.snd)
  | both {a b : Builder} {ops ops₁ : List Operation} : Executed a ops → Executed b ops₁ →
    Executed (a.both b) (ops ++ ops₁)
  | either {a b : Builder} {ops ops₁ : List Operation} : Executed a ops → Executed b ops₁ →
    Executed (a.either b) (ops ++ ops₁)

namespace Builder

/-- **A query has an update exactly when an operation that changes the data was executed in it.** -/
theorem hasUpdate_iff {b : Builder} {ops : List Operation} (executed : Executed b ops) :
    b.hasUpdate = true ↔ ∃ op ∈ ops, op.isUpdate = true := by
  have exact_ : b.Sound ∧ b.hasUpdate = ops.any Operation.isUpdate := by
    induction executed with
    | ofVocabulary vocabulary => exact ⟨sound_blank _ true, hasUpdate_blank _ true⟩
    | ofConfig config =>
      exact ⟨sound_blank _ config.expandsPaths, hasUpdate_blank _ config.expandsPaths⟩
    | @cleared b _ _ _ => exact ⟨sound_blank _ b.expandsPaths, hasUpdate_blank _ b.expandsPaths⟩
    | extendVocabulary given _ ih =>
      obtain ⟨sound, update⟩ := ih.1.extendVocabulary given
      exact ⟨sound, by rw [update, ih.2, Bool.or_false]⟩
    | @run b after call ops inner _ same noJson silent _ ran ih ihs =>
      have each : ∀ part ∈ inner,
          part.1.Sound ∧ part.1.hasUpdate = part.2.any Operation.isUpdate := by
        rintro ⟨q, log⟩ mem
        cases q with
        | query q =>
          obtain ⟨sound, update⟩ := ihs q log mem
          exact ⟨sound.subQuery, update⟩
        | following =>
          obtain rfl := silent log (.inl mem)
          exact ⟨sound_following, rfl⟩
        | truth =>
          obtain rfl := silent log (.inr mem)
          exact ⟨sound_truth, rfl⟩
        | json json => exact absurd mem (noJson json log)
      obtain ⟨sound, update⟩ := ih.1.run_logged same each ran
      refine ⟨sound, ?_⟩
      rw [update, ih.2, List.any_append, List.any_cons]
    | both _ _ ih ih₁ =>
      obtain ⟨sound, update⟩ := ih.1.both ih₁.1
      exact ⟨sound, by rw [update, ih.2, ih₁.2, List.any_append]⟩
    | either _ _ ih ih₁ =>
      obtain ⟨sound, update⟩ := ih.1.either ih₁.1
      exact ⟨sound, by rw [update, ih.2, ih₁.2, List.any_append]⟩
  rw [exact_.2, List.any_eq_true]

/-- A query about a deletion of a document. The deletion counts where the inner query is passed. -/
theorem hasUpdate_optional_delete : ∃ b, Executed b [.optional, .deleteDocument] ∧
    b.hasUpdate = true ∧ ∃ op ∈ [Operation.optional, .deleteDocument], op.isUpdate = true := by
  have start : Executed (ofVocabulary .standard) [] := .ofVocabulary _
  obtain ⟨q, b, ran, ran₁, update⟩ : ∃ q b, (ofVocabulary .standard).run
      (.fill .deleteDocument [.str "v:Doc"] (by decide) (by decide)) = .ok q ∧
        (ofVocabulary .standard).run (.about .optional (.query q)) = .ok b ∧
          b.hasUpdate = true := ⟨_, _, rfl, rfl, rfl⟩
  have inner : Executed q [.deleteDocument] := by
    have same : ([] : List (SubQuery × List Operation)).map Prod.fst = [] := rfl
    exact start.run same (by simp) (by simp) (by simp) ran
  have built : Executed b [.optional, .deleteDocument] := by
    have same : [(SubQuery.query q, [Operation.deleteDocument])].map Prod.fst = [.query q] := rfl
    refine start.run same (by simp) (by simp) ?_ ran₁
    intro q₁ ops mem
    cases List.mem_singleton.1 mem
    exact inner
  exact ⟨b, built, update, (hasUpdate_iff built).1 update⟩

end Builder

end GraphQuery
