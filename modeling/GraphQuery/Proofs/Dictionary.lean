import Mathlib.Data.List.Perm.Basic
import GraphQuery.Dictionary

/-!
# Laws of dictionaries

Storing under one name twice keeps the last value, storing what is there already changes nothing,
and a sorted dictionary is, up to order, one entry and the dictionary without it.

Key theorems: `Dictionary.insert_insert`, `Dictionary.Sorted.insert_eq_self`,
`Dictionary.Sorted.insert_perm`, `Dictionary.Sorted.perm_erase`, `Dictionary.mapValues_insert`,
`Dictionary.mem_keys_insert`.
-/

namespace GraphQuery
namespace Dictionary

variable {α β γ : Type}

theorem insert_insert (key : String) (old value : α) :
    ∀ entries : Dictionary α, insert key value (insert key old entries) = insert key value entries
  | [] => by simp [insert]
  | (k, v) :: rest => by
    by_cases less : key < k
    · simp [insert, less]
    · by_cases same : key = k
      · simp [insert, same]
      · have ih := insert_insert key old value rest
        simp [insert, less, same, ih]

/-- Two names may be stored in either order. -/
theorem insert_comm {a b : String} (less : a < b) (x y : α) :
    ∀ entries : Dictionary α, insert a x (insert b y entries) = insert b y (insert a x entries)
  | [] => by
    have notLess : ¬ b < a := fun h => Std.lt_irrefl (Std.lt_trans less h)
    have ne : b ≠ a := fun h => Std.lt_irrefl (h ▸ less)
    simp [insert, less, notLess, ne]
  | (k, v) :: rest => by
    have ih := insert_comm less x y rest
    have notLess : ¬ b < a := fun h => Std.lt_irrefl (Std.lt_trans less h)
    have ne : b ≠ a := fun h => Std.lt_irrefl (h ▸ less)
    by_cases bk : b < k
    · have ak : a < k := Std.lt_trans less bk
      simp [insert, less, notLess, ne, bk, ak]
    · by_cases same : b = k
      · subst same
        simp [insert, less, notLess, ne]
      · by_cases ak : a < k
        · simp [insert, notLess, ne, bk, same, ak]
        · by_cases same₁ : a = k
          · subst same₁
            have later (w : α) : insert b y ((a, w) :: rest) = (a, w) :: insert b y rest := by
              rw [insert, if_neg notLess, if_neg ne]
            rw [later, insert_cons_self, insert_cons_self, later]
          · simp [insert, bk, same, ak, same₁, ih]

/-- Storing under one name leaves the other entries where they are. -/
theorem mem_insert_of_mem_of_ne {key : String} {value : α} {entry : String × α} :
    ∀ {entries : Dictionary α}, entry ∈ entries → entry.1 ≠ key → entry ∈ insert key value entries
  | (k, v) :: rest, mem, ne => by
    by_cases less : key < k
    · rw [insert, if_pos less]
      exact List.mem_cons_of_mem _ mem
    · rw [insert, if_neg less]
      rcases List.mem_cons.1 mem with rfl | mem
      · rw [if_neg (Ne.symm ne)]
        exact List.mem_cons_self
      · by_cases same : key = k
        · rw [if_pos same]
          exact List.mem_cons_of_mem _ mem
        · rw [if_neg same]
          exact List.mem_cons_of_mem _ (mem_insert_of_mem_of_ne mem ne)

theorem mapValues_insert (f : α → β) (key : String) (value : α) :
    ∀ entries : Dictionary α,
      mapValues f (insert key value entries) = insert key (f value) (mapValues f entries)
  | [] => rfl
  | (k, v) :: rest => by
    have ih := mapValues_insert f key value rest
    simp only [mapValues] at ih
    by_cases less : key < k
    · simp [insert, mapValues, less]
    · by_cases same : key = k
      · simp [insert, mapValues, same]
      · simp [insert, mapValues, less, same, ih]

@[simp] theorem mapValues_mapValues (g : β → γ) (f : α → β) (entries : Dictionary α) :
    mapValues g (mapValues f entries) = mapValues (g ∘ f) entries := by
  simp [mapValues]

theorem mapValues_congr {f g : α → β} {entries : Dictionary α}
    (h : ∀ entry ∈ entries, f entry.2 = g entry.2) : mapValues f entries = mapValues g entries :=
  List.map_congr_left fun entry mem => by rw [h entry mem]

theorem sorted_singleton (key : String) (value : α) : Sorted [(key, value)] :=
  List.pairwise_singleton _ _

theorem sorted_mapValues_iff {f : α → β} {entries : Dictionary α} :
    Sorted (mapValues f entries) ↔ Sorted entries := List.pairwise_map

/-- Storing the value that a name has changes nothing. -/
theorem Sorted.insert_eq_self {key : String} {value : α} :
    ∀ {entries : Dictionary α}, Sorted entries → find? key entries = some value →
      Dictionary.insert key value entries = entries
  | (k, v) :: rest, sorted, found => by
    have ⟨first, others⟩ := List.pairwise_cons.1 sorted
    by_cases same : key = k
    · subst same
      have : v = value := by simpa [find?] using found
      rw [this, insert_cons_self]
    · have later : find? key rest = some value := by simpa [find?, same] using found
      have less : ¬ key < k := by
        intro less
        have := first _ (mem_of_find? later)
        exact Std.lt_irrefl (Std.lt_trans less this)
      simp [Dictionary.insert, less, same, Sorted.insert_eq_self others later]

theorem erase_of_forall_ne {key : String} {entries : Dictionary α}
    (h : ∀ entry ∈ entries, entry.1 ≠ key) : erase key entries = entries := by
  unfold erase
  rw [List.filter_eq_self]
  intro entry mem
  simpa using h entry mem

/-- After the first entry of a sorted dictionary its name does not come again. -/
theorem Sorted.erase_cons {key : String} {value : α} {rest : Dictionary α}
    (sorted : Sorted ((key, value) :: rest)) :
    Dictionary.erase key ((key, value) :: rest) = rest := by
  have ⟨first, _⟩ := List.pairwise_cons.1 sorted
  have absent : Dictionary.erase key rest = rest :=
    erase_of_forall_ne fun entry mem same => Std.lt_irrefl (same ▸ first entry mem)
  simpa [Dictionary.erase] using absent

theorem erase_cons_of_ne {key k : String} (value : α) (rest : Dictionary α) (ne : k ≠ key) :
    erase key ((k, value) :: rest) = (k, value) :: erase key rest := by
  simp [erase, ne]

theorem insert_of_forall_lt {key : String} (value : α) {entries : Dictionary α}
    (less : ∀ entry ∈ entries, key < entry.1) :
    insert key value entries = (key, value) :: entries := by
  cases entries with
  | nil => rfl
  | cons entry rest => rw [insert, if_pos (less entry List.mem_cons_self)]

/-- Storing what was removed brings it back. -/
theorem Sorted.insert_erase {key : String} {value : α} :
    ∀ {entries : Dictionary α}, Sorted entries → find? key entries = some value →
      Dictionary.insert key value (Dictionary.erase key entries) = entries
  | (k, v) :: rest, sorted, found => by
    have ⟨first, others⟩ := List.pairwise_cons.1 sorted
    by_cases same : key = k
    · subst same
      have : v = value := by simpa [find?] using found
      rw [sorted.erase_cons, insert_of_forall_lt value first, this]
    · have later : find? key rest = some value := by simpa [find?, same] using found
      have less : ¬ key < k := by
        intro less
        have := first _ (mem_of_find? later)
        exact Std.lt_irrefl (Std.lt_trans less this)
      rw [erase_cons_of_ne v rest (Ne.symm same), Dictionary.insert, if_neg less, if_neg same,
        Sorted.insert_erase others later]

/-- Up to order, storing under a name adds an entry to those of other names. -/
theorem Sorted.insert_perm {key : String} {value : α} :
    ∀ {entries : Dictionary α}, Sorted entries →
      (Dictionary.insert key value entries).Perm ((key, value) :: Dictionary.erase key entries)
  | [], _ => .refl _
  | (k, v) :: rest, sorted => by
    have ⟨first, others⟩ := List.pairwise_cons.1 sorted
    by_cases less : key < k
    · have absent : ∀ entry ∈ (k, v) :: rest, entry.1 ≠ key := by
        intro entry mem same
        rcases List.mem_cons.1 mem with rfl | mem
        · exact Std.lt_irrefl (same ▸ less)
        · exact Std.lt_irrefl (Std.lt_trans less (same ▸ first entry mem))
      rw [erase_of_forall_ne absent]
      simp [Dictionary.insert, less]
    · by_cases same : key = k
      · subst same
        rw [sorted.erase_cons, insert_cons_self]
      · rw [erase_cons_of_ne v rest (Ne.symm same)]
        simp only [Dictionary.insert, less, same, if_false]
        exact ((Sorted.insert_perm others).cons (k, v)).trans (.swap _ _ _)

/-- Up to order, a sorted dictionary is the entry of a name and those of other names. -/
theorem Sorted.perm_erase {key : String} {value : α} {entries : Dictionary α}
    (sorted : Sorted entries) (found : find? key entries = some value) :
    entries.Perm ((key, value) :: Dictionary.erase key entries) := by
  have same := sorted.insert_eq_self found
  have perm : (Dictionary.insert key value entries).Perm _ := sorted.insert_perm
  rwa [same] at perm

/-- An entry is one of those stored or was there before. -/
theorem mem_insertAll (given : Dictionary α) : ∀ {entries : Dictionary α} {entry : String × α},
    entry ∈ insertAll given entries → entry ∈ given ∨ entry ∈ entries := by
  induction given with
  | nil => exact fun mem => .inr mem
  | cons first given ih =>
    intro entries entry mem
    rcases ih mem with later | mem
    · exact .inl (List.mem_cons_of_mem _ later)
    · rcases mem_insert mem with rfl | before
      · exact .inl List.mem_cons_self
      · exact .inr before

/-- What is found is what was stored or, under another name, what was there. -/
theorem find?_insertAll (key : String) : ∀ {given : Dictionary α}, Sorted given →
    ∀ entries : Dictionary α,
      find? key (insertAll given entries) = (find? key given).or (find? key entries)
  | [], _, _ => rfl
  | (name, value) :: rest, sorted, entries => by
    have ⟨first, others⟩ := List.pairwise_cons.1 sorted
    have ih := find?_insertAll key others (Dictionary.insert name value entries)
    by_cases same : key = name
    · subst same
      have later : find? key rest = none := by
        refine find?_eq_none_of_forall_ne fun entry mem equal => ?_
        have less := first entry mem
        rw [equal] at less
        exact Std.lt_irrefl less
      rw [later, find?_insert_self] at ih
      exact ih.trans (by simp [find?])
    · rw [find?_insert_of_ne same] at ih
      exact ih.trans (by simp [find?, same])

/-- What is stored under a name is found. -/
theorem isSome_find?_iff {key : String} : ∀ entries : Dictionary α,
    (find? key entries).isSome = true ↔ key ∈ keys entries
  | [] => by simp [keys]
  | (k, value) :: rest => by
    have listed : key ∈ keys ((k, value) :: rest) ↔ key = k ∨ key ∈ keys rest := List.mem_cons
    rw [find?, listed, ← isSome_find?_iff rest]
    by_cases same : key = k
    · simp [same]
    · simp [same]

theorem mem_keys_insert {key other : String} {value : α} {entries : Dictionary α} :
    other ∈ keys (entries.insert key value) ↔ other = key ∨ other ∈ keys entries := by
  rw [← isSome_find?_iff, ← isSome_find?_iff]
  by_cases same : other = key
  · simp [same]
  · rw [find?_insert_of_ne same]
    simp [same]

end Dictionary
end GraphQuery
