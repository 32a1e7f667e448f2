import GraphQuery.Proofs.Chaining

/-!
# Steps done apart

Each of several steps can also be done on an empty query of its own, with the settings that those
before it leave. If every step adds to a query a share that depends only on what it sends when it is
done apart, then all the steps together add their shares in order; and if one of them fails, it
fails apart with the same error.

Key definitions: `Builder.apart`, `Sketch.AddsShare`.
Key theorems: `Sketch.addsShare_call`, `Builder.Realizes.follow_apart`.
-/

namespace GraphQuery

namespace Builder

/-- What each of several steps sends when it is done on an empty query of its own. -/
def apart (b : Builder) : List Step → Except Error (List Json)
  | [] => .ok []
  | step :: steps => do
    let alone ← b.step step
    let others ← alone.cleared.apart steps
    return alone.wire :: others

end Builder

namespace Sketch

/-- A step adds to the total of a sketch the share of what it sends apart, and leaves the settings
that it leaves apart. -/
def AddsShare (total : Sketch → List Json → Prop) (share : Json → List Json) (k : Sketch)
    (before : List Json) (step : Step) : Prop :=
  Agrees (fun after alone => total after (before ++ share alone.tree.wire) ∧
      after.vocabulary = alone.vocabulary ∧ after.expandsPaths = alone.expandsPaths)
    (k.step step) ((blank k.vocabulary k.expandsPaths).step step)

/-- A call does if the edit that it comes to does. Edits leave the settings as they are. -/
theorem addsShare_call {total : Sketch → List Json → Prop} {share : Json → List Json} {k : Sketch}
    {before : List Json} {call : Call}
    (each : ∀ e, call.edit k.vocabulary k.expandsPaths = .ok e →
      Agrees (fun after alone => total after (before ++ share alone.tree.wire)) (k.perform e)
        ((blank k.vocabulary k.expandsPaths).perform e)) :
    k.AddsShare total share before (.call call) := by
  have alone : (blank k.vocabulary k.expandsPaths).step (.call call) =
      (call.edit k.vocabulary k.expandsPaths).bind
        (blank k.vocabulary k.expandsPaths).perform := rfl
  rw [AddsShare, alone, step, run]
  cases found : call.edit k.vocabulary k.expandsPaths with
  | error e => exact .error e
  | ok e =>
    have adds := each e found
    simp only [Except.bind]
    cases ran : k.perform e with
    | error e₁ =>
      rw [ran] at adds
      rw [adds.symm.eq_error]
      exact .error e₁
    | ok after =>
      rw [ran] at adds
      obtain ⟨single, ran₁, added⟩ := adds.exists_right
      rw [ran₁]
      have kept := perform_settings ran
      have kept₁ := perform_settings ran₁
      exact .ok ⟨added, kept.1.trans kept₁.1.symm, kept.2.trans kept₁.2.symm⟩

end Sketch

namespace Builder

variable {total : Sketch → List Json → Prop} {share : Json → List Json} {good : Step → Prop}

/-- **Steps add their shares**, if each of them does. -/
theorem Realizes.follow_apart
    (each : ∀ k before step, total k before → good step → k.AddsShare total share before step) :
    ∀ {steps : List Step} {b : Builder} {k : Sketch} {before : List Json}, b.Realizes k →
      total k before → (∀ step ∈ steps, good step) →
        Agrees (fun after sent => ∃ k₁, after.Realizes k₁ ∧
            total k₁ (before ++ sent.flatMap share))
          (b.follow steps) ((blank k.vocabulary k.expandsPaths).apart steps)
  | [], b, k, before, h, here, _ => .ok ⟨k, h, by rwa [List.flatMap_nil, List.append_nil]⟩
  | step :: steps, b, k, before, h, here, all => by
    have ⟨first, others⟩ := List.forall_mem_cons.1 all
    have inside := h.step step
    have alone := (realizes_blank k.vocabulary k.expandsPaths).step step
    have adds := each k before step here first
    unfold Sketch.AddsShare at adds
    have unfolded : b.follow (step :: steps) = (b.step step).bind fun b => b.follow steps := rfl
    rw [unfolded, apart]
    cases stepped : k.step step with
    | error e =>
      -- The step fails apart with the same error, so both sides stop here.
      rw [stepped] at inside adds
      rw [adds.symm.eq_error] at alone
      rw [inside.eq_error, alone.eq_error]
      exact .error e
    | ok k₁ =>
      rw [stepped] at inside adds
      obtain ⟨j, stepped₁, grown, vocabulary, expandsPaths⟩ := adds.exists_right
      rw [stepped₁] at alone
      obtain ⟨next, ran, h₁⟩ := inside.exists_left
      obtain ⟨single, ran₁, h₂⟩ := alone.exists_left
      -- The other steps are done apart with the settings that this one left there.
      have settings : single.cleared = blank k₁.vocabulary k₁.expandsPaths := by
        rw [cleared_eq_blank, h₂.vocabulary_eq, h₂.expandsPaths_eq, vocabulary, expandsPaths]
      have sent : single.wire = j.tree.wire := by
        rw [wire, h₂.tree_eq]
      have later := follow_apart each h₁ grown others
      rw [ran, ran₁]
      simp only [bind, Except.bind, settings]
      cases apart₁ : (blank k₁.vocabulary k₁.expandsPaths).apart steps with
      | error e =>
        rw [apart₁] at later
        rw [later.eq_error]
        exact .error e
      | ok rest =>
        rw [apart₁] at later
        obtain ⟨after, followed, k₂, h₃, whole⟩ := later.exists_left
        rw [followed]
        refine .ok ⟨k₂, h₃, ?_⟩
        rw [List.flatMap_cons, sent, ← List.append_assoc]
        exact whole

end Builder

end GraphQuery
