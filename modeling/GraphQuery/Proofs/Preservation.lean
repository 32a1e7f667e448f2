import GraphQuery.Proofs.Gain
import GraphQuery.Proofs.Realization
import GraphQuery.Proofs.Success

/-!
# Properties that every builder has

A call that writes one node comes to one edit, and a replacement to an edit with queries of its own
that are made by such calls. So a property of builders that new ones have and that edits keep is
kept by every call, and holds of every builder that can be reached.

Key definitions: `Builder.KeptByEdits`.
Key theorems: `Builder.edit_plain`, `Builder.KeptByEdits.run`, `Builder.KeptByEdits.of_reachable`.
-/

namespace GraphQuery

namespace Builder

/-- What a call that writes one node comes to is in order, and brings an update if the operation
changes the data or a sub-query brings one. -/
theorem edit_plain {vocabulary : Vocabulary} {expandsPaths : Bool} {call : Call} {e : Edit}
    (single : call.operation.isComposite = false)
    (found : call.edit vocabulary expandsPaths = .ok e) :
    e.Plain ∧ e.subQueries = call.subQueries ∧
      e.hasUpdate = (call.operation.isUpdate || call.subQueries.any SubQuery.hasUpdate) := by
  have node : ∀ {op : Operation} {x : Except Error (List (String × Json))} {e : Edit},
      op.isSimple → Yields x PlainFields → x.map (Edit.write op) = .ok e →
        e.Plain ∧ e.subQueries = [] ∧ e.hasUpdate = (op.isUpdate || false) := by
    intro op x e simple plain found
    obtain ⟨fields, written, rfl⟩ := map_eq_ok_iff.1 found
    refine ⟨⟨Operation.kind_ne_combinator simple, plain fields written⟩, rfl, ?_⟩
    rw [Operation.isUpdate_of_isSimple simple, Bool.or_false]
    rfl
  cases call with
  | edge kind subject predicate object graph =>
    exact node (kind.isSimple_operation graph.isSome) (edgeFields_plain _ _ _ _ _ _) found
  | star graph => exact node rfl (edgeFields_plain _ _ _ _ _ _) found
  | replace subject predicate object graph => cases graph <;> cases single
  | path subject pattern object bound =>
    obtain ⟨steps, _, later⟩ := bind_eq_ok_iff.1 found
    obtain ⟨fields, written, same⟩ := bind_eq_ok_iff.1 later
    exact node rfl (pathFields_plain _ _ _ _ _)
      (map_eq_ok_iff.2 ⟨fields, written, Except.ok.inj same⟩)
  | along subject pattern object path => exact node rfl (pathFields_plain _ _ _ _ _) found
  | size resource amount => exact node rfl (measureFields_plain _ _ (by decide) _ _) found
  | tripleCount resource amount => exact node rfl (measureFields_plain _ _ (by decide) _ _) found
  | fill op terms slotted complete =>
    exact node (Operation.isSimple_of_slots slotted) (slotFields_plain _ _ _) found
  | and qs =>
    cases found
    exact ⟨trivial, rfl, rfl⟩
  | or qs =>
    cases found
    exact ⟨trivial, rfl, rfl⟩
  | about host q =>
    obtain ⟨fields, written, rfl⟩ := map_eq_ok_iff.1 found
    have simple := host.isSimple_operation
    refine ⟨⟨Operation.kind_ne_combinator simple, host.fields_plain vocabulary fields written⟩,
      rfl, ?_⟩
    simp [Edit.hasUpdate, Call.operation, Call.subQueries, Operation.isUpdate_of_isSimple simple]
  | when condition consequent =>
    cases found
    have pure : Operation.when.isUpdate = false := by decide
    exact ⟨trivial, rfl, by simp [Edit.hasUpdate, Call.operation, Call.subQueries, pure]⟩
  | truth =>
    have simple : Operation.truth.isSimple := rfl
    have none : PlainFields [] := by simp [PlainFields]
    cases found
    exact ⟨⟨Operation.kind_ne_combinator simple, none⟩, rfl, by decide⟩

theorem single_edge (kind : EdgeKind) (subject predicate object : Term) (graph : Option String) :
    (Call.edge kind subject predicate object graph).operation.isComposite = false := by
  cases kind <;> cases graph <;> rfl

theorem single_about (host : Host) (q : SubQuery) :
    (Call.about host q).operation.isComposite = false := by
  cases host <;> rfl

/-- Only a replacement writes several nodes. -/
theorem single_or_replace (call : Call) : call.operation.isComposite = false ∨
    ∃ subject predicate object graph, call = .replace subject predicate object graph := by
  cases call with
  | replace subject predicate object graph => exact .inr ⟨subject, predicate, object, graph, rfl⟩
  | edge kind subject predicate object graph => exact .inl (single_edge _ _ _ _ _)
  | fill op terms slotted complete =>
    left
    cases op <;> first | rfl | exact absurd rfl slotted
  | about host q => exact .inl (single_about host q)
  | _ => exact .inl rfl

/-- A property that new builders have and that edits keep when the sub-queries passed are good. A
query with the property is good, and so is what is left to the operations that follow. -/
structure KeptByEdits (P : Builder → Prop) (Good : SubQuery → Prop) : Prop where
  blank : ∀ vocabulary expandsPaths, P (blank vocabulary expandsPaths)
  query : ∀ {q : Builder}, P q → Good (.query q)
  following : Good .following
  perform : ∀ {b after : Builder} {e : Edit}, P b → e.Plain → (∀ q ∈ e.subQueries, Good q) →
    b.perform e = .ok after → P after

namespace KeptByEdits

variable {P : Builder → Prop} {Good : SubQuery → Prop} {b after : Builder}

/-- A call that writes one node is an edit. -/
theorem run_single (kept : KeptByEdits P Good) (h : P b) {call : Call}
    (single : call.operation.isComposite = false) (parts : ∀ q ∈ call.subQueries, Good q)
    (ran : b.run call = .ok after) : P after := by
  rw [run_eq_perform] at ran
  obtain ⟨e, found, ran⟩ := bind_eq_ok_iff.1 ran
  obtain ⟨plain, same, -⟩ := edit_plain single found
  exact kept.perform h plain (same ▸ parts) ran

theorem edge (kept : KeptByEdits P Good) (h : P b) (kind : EdgeKind)
    (subject predicate object : Term) (graph : Option String) :
    Yields (b.edge kind subject predicate object graph) P := by
  intro after ran
  exact kept.run_single h (single_edge _ _ _ _ _) nofun ran

theorem about (kept : KeptByEdits P Good) (h : P b) (host : Host) {q : SubQuery} (part : Good q) :
    Yields (b.about host q) P := by
  intro after ran
  exact kept.run_single h (single_about host q) (List.forall_mem_singleton.2 part) ran

theorem removal (kept : KeptByEdits P Good) (h : P b) (subject predicate object : Term)
    (graph : Option String) : Yields (b.removal subject predicate object graph) P :=
  .bind fun b₁ ran₁ => .bind fun b₂ ran₂ => .bind fun b₃ ran₃ =>
    have h₁ := kept.edge h _ _ _ _ _ b₁ ran₁
    have h₂ := kept.edge h₁ _ _ _ _ _ b₂ ran₂
    have h₃ := kept.about h₂ .not kept.following b₃ ran₃
    kept.edge h₃ _ _ _ _ _

/-- Both parts of a replacement have the property. -/
theorem replacement (kept : KeptByEdits P Good) (vocabulary : Vocabulary) (expandsPaths : Bool)
    (subject predicate object : Term) (graph : Option String) :
    Yields (Builder.replacement vocabulary expandsPaths subject predicate object graph)
      fun parts => P parts.1 ∧ P parts.2 := by
  have start := kept.blank vocabulary expandsPaths
  refine .bind fun removal ran => .bind fun optional ran₁ => .bind fun addition ran₂ => .ok ?_
  have removes := kept.removal start _ _ _ _ removal ran
  exact ⟨kept.about start .optional (kept.query removes) optional ran₁,
    kept.edge start _ _ _ _ _ addition ran₂⟩

/-- **Every call keeps what edits keep.** -/
theorem run (kept : KeptByEdits P Good) (h : P b) {call : Call}
    (parts : ∀ q ∈ call.subQueries, Good q) (ran : b.run call = .ok after) : P after := by
  rcases single_or_replace call with single | ⟨subject, predicate, object, graph, rfl⟩
  · exact kept.run_single h single parts ran
  · rw [run_eq_perform] at ran
    obtain ⟨e, found, ran⟩ := bind_eq_ok_iff.1 ran
    obtain ⟨⟨optional, addition⟩, replaced, rfl⟩ := map_eq_ok_iff.1 found
    obtain ⟨first, second⟩ := kept.replacement _ _ _ _ _ _ _ replaced
    refine kept.perform (e := .and [.query optional, .query addition]) h trivial ?_ ran
    exact List.forall_mem_cons.2
      ⟨kept.query first, List.forall_mem_singleton.2 (kept.query second)⟩

/-- **A property that edits, more names and combinations keep holds of every builder** that can be
reached from builders with the property, if only the finished queries passed can be no good. -/
theorem of_reachable (kept : KeptByEdits P Good) {start : Builder → Prop}
    (initial : ∀ b, start b → P b) (good : ∀ q, (∀ b, q = .query b → P b) → Good q)
    (extendVocabulary : ∀ b given, P b → P (b.extendVocabulary given))
    (both : ∀ a b, P a → P b → P (a.both b)) (either : ∀ a b, P a → P b → P (a.either b))
    (reachable : Reachable start b) : P b := by
  induction reachable with
  | start h => exact initial _ h
  | cleared _ _ => exact kept.blank _ _
  | extendVocabulary given _ ih => exact extendVocabulary _ given ih
  | run _ _ ran ih ihs =>
    exact kept.run ih (fun q mem => good q fun b same => ihs b (same ▸ mem)) ran
  | both _ _ ih ih₁ => exact both _ _ ih ih₁
  | either _ _ ih ih₁ => exact either _ _ ih ih₁

end KeptByEdits

end Builder

end GraphQuery
