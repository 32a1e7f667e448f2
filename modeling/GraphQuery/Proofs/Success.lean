import Mathlib.Data.List.Forall2

/-!
# Computations that succeed or fail

A computation of several steps succeeds exactly when each of its steps does. What holds of the
errors of every step holds of the errors of all of them together.

Key definitions: `FailsOnly`.
Key theorems: `bind_eq_ok_iff`, `bind_eq_error_iff`, `map_eq_ok_iff`, `mapError_eq_ok_iff`,
`mapError_eq_error_iff`, `mapM_eq_ok_iff`.
-/

namespace GraphQuery

variable {ε ε₁ α β : Type} {x : Except ε α}

theorem bind_eq_ok_iff {f : α → Except ε β} {b : β} :
    x >>= f = .ok b ↔ ∃ a, x = .ok a ∧ f a = .ok b := by
  cases x <;> simp [bind, Except.bind]

theorem bind_eq_error_iff {f : α → Except ε β} {e : ε} :
    x >>= f = .error e ↔ x = .error e ∨ ∃ a, x = .ok a ∧ f a = .error e := by
  cases x <;> simp [bind, Except.bind]

theorem map_eq_ok_iff {f : α → β} {b : β} : x.map f = .ok b ↔ ∃ a, x = .ok a ∧ f a = b := by
  cases x <;> simp [Except.map]

theorem mapError_eq_ok_iff {f : ε → ε₁} {a : α} : x.mapError f = .ok a ↔ x = .ok a := by
  cases x with
  | error e => exact ⟨nofun, nofun⟩
  | ok b => exact ⟨fun h => congrArg Except.ok (Except.ok.inj h), fun h => h ▸ rfl⟩

theorem mapError_eq_error_iff {f : ε → ε₁} {e₁ : ε₁} :
    x.mapError f = .error e₁ ↔ ∃ e, x = .error e ∧ f e = e₁ := by
  cases x with
  | error e =>
    constructor
    · intro h
      exact ⟨e, rfl, Except.error.inj h⟩
    · rintro ⟨_, same, rfl⟩
      exact congrArg _ (congrArg f (Except.error.inj same))
  | ok a => exact iff_of_false (fun h => by cases h) (fun ⟨_, h, _⟩ => by cases h)

theorem toOption_eq_some_iff {a : α} : x.toOption = some a ↔ x = .ok a := by
  cases x <;> simp [Except.toOption]

/-- All items succeed, each with its own result. -/
theorem mapM_eq_ok_iff {f : α → Except ε β} {as : List α} {bs : List β} :
    as.mapM f = .ok bs ↔ List.Forall₂ (fun a b => f a = .ok b) as bs := by
  induction as generalizing bs with
  | nil => simp [pure, Except.pure, eq_comm]
  | cons a as ih =>
    rw [List.mapM_cons, bind_eq_ok_iff, List.forall₂_cons_left_iff]
    simp only [bind_eq_ok_iff, ih]
    constructor
    · rintro ⟨b, first, bs, others, same⟩
      cases same
      exact ⟨b, bs, first, others, rfl⟩
    · rintro ⟨b, bs, first, others, rfl⟩
      exact ⟨b, first, bs, others, rfl⟩

/-- Every error of a computation has a property. -/
def FailsOnly (property : ε → Prop) (x : Except ε α) : Prop := ∀ e, x = .error e → property e

namespace FailsOnly

variable {property : ε → Prop}

theorem ok {a : α} : FailsOnly property (.ok a) := nofun

theorem error {e : ε} (h : property e) : FailsOnly property (.error e : Except ε α) := by
  intro e₁ same
  cases same
  exact h

theorem bind {f : α → Except ε β} (h : FailsOnly property x)
    (h₁ : ∀ a, x = .ok a → FailsOnly property (f a)) : FailsOnly property (x >>= f) := by
  intro e failed
  rcases bind_eq_error_iff.1 failed with first | ⟨a, succeeds, later⟩
  · exact h e first
  · exact h₁ a succeeds e later

theorem map {f : α → β} (h : FailsOnly property x) : FailsOnly property (x.map f) := by
  intro e failed
  cases x with
  | error e₁ =>
    cases failed
    exact h e rfl
  | ok a => cases failed

theorem mapError {property : ε₁ → Prop} {f : ε → ε₁} (h : FailsOnly (fun e => property (f e)) x) :
    FailsOnly property (x.mapError f) := by
  intro e₁ failed
  obtain ⟨e, first, rfl⟩ := mapError_eq_error_iff.1 failed
  exact h e first

theorem mapM {f : α → Except ε β} : ∀ {as : List α}, (∀ a ∈ as, FailsOnly property (f a)) →
    FailsOnly property (as.mapM f)
  | [], _ => by
    rw [List.mapM_nil]
    exact .ok
  | a :: as, each => by
    have ⟨first, others⟩ := List.forall_mem_cons.1 each
    rw [List.mapM_cons]
    exact first.bind fun b _ => (mapM others).bind fun bs _ => .ok

end FailsOnly

end GraphQuery
