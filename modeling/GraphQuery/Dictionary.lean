/-!
# Dictionaries

A dictionary is a list of named values in strictly increasing order of the name, by code point.
Objects, the fields of a query node and vocabularies are dictionaries, so the order in which they
were filled never shows. `Sorted` is kept apart from the data, so that recursive types can hold
dictionaries of themselves.

Key definitions: `Dictionary`, `Dictionary.find?`, `Dictionary.insert`, `Dictionary.Sorted`.
Key theorems: `find?_insert_self`, `find?_insert_of_ne`, `Sorted.insert`,
`Sorted.find?_of_mem`.
-/

namespace GraphQuery

/-- Values by name. -/
abbrev Dictionary (α : Type) := List (String × α)

namespace Dictionary

variable {α β : Type}

/-- The value stored under a name. -/
def find? (key : String) : Dictionary α → Option α
  | [] => none
  | (k, v) :: rest => if key = k then some v else find? key rest

/-- Whether there is a value under a name. -/
def contains (key : String) (entries : Dictionary α) : Bool := (find? key entries).isSome

/-- Stores a value under a name, replacing the one that was there. -/
def insert (key : String) (value : α) : Dictionary α → Dictionary α
  | [] => [(key, value)]
  | (k, v) :: rest =>
    if key < k then (key, value) :: (k, v) :: rest
    else if key = k then (key, value) :: rest
    else (k, v) :: insert key value rest

/-- Stores a value under a name only if the name is new. -/
def insertNew (key : String) (value : α) (entries : Dictionary α) : Dictionary α :=
  if contains key entries then entries else insert key value entries

/-- Stores several values in turn, so the last one given for a name stays. -/
def insertAll (given entries : Dictionary α) : Dictionary α :=
  given.foldl (fun filled entry => insert entry.1 entry.2 filled) entries

/-- The dictionary of the pairs given, in any order; the last value of a name counts. -/
def ofList (given : List (String × α)) : Dictionary α := insertAll given []

/-- Removes a name. -/
def erase (key : String) (entries : Dictionary α) : Dictionary α :=
  entries.filter fun entry => entry.1 ≠ key

/-- Applies a function to each value. -/
def mapValues (f : α → β) (entries : Dictionary α) : Dictionary β :=
  entries.map fun entry => (entry.1, f entry.2)

/-- The names in order. -/
def keys (entries : Dictionary α) : List String := entries.map Prod.fst

/-- Strictly increasing names. -/
def Sorted (entries : Dictionary α) : Prop := entries.Pairwise fun a b => a.1 < b.1

instance (entries : Dictionary α) : Decidable entries.Sorted :=
  inferInstanceAs (Decidable (entries.Pairwise fun a b => a.1 < b.1))

@[simp] theorem find?_nil (key : String) : find? key ([] : Dictionary α) = none := rfl

@[simp] theorem contains_nil (key : String) : contains key ([] : Dictionary α) = false := rfl

/-- A name that comes first gets the new value in its place. -/
@[simp] theorem insert_cons_self (key : String) (value old : α) (rest : Dictionary α) :
    insert key value ((key, old) :: rest) = (key, value) :: rest := by
  rw [insert, if_neg Std.lt_irrefl, if_pos rfl]

/-- What was stored last under a name is found there. -/
@[simp] theorem find?_insert_self (key : String) (value : α) :
    ∀ entries : Dictionary α, find? key (insert key value entries) = some value
  | [] => by simp [insert, find?]
  | (k, v) :: rest => by
    unfold insert
    split
    · simp [find?]
    · split
      · simp [find?]
      · simp [find?, *, find?_insert_self key value rest]

/-- Storing under one name leaves the others alone. -/
theorem find?_insert_of_ne {key other : String} (h : other ≠ key) (value : α) :
    ∀ entries : Dictionary α, find? other (insert key value entries) = find? other entries
  | [] => by simp [insert, find?, h]
  | (k, v) :: rest => by
    unfold insert
    split
    · simp [find?, h]
    · split
      · next same => subst same; simp [find?, h]
      · simp [find?, find?_insert_of_ne h value rest]

theorem mem_of_find? {key : String} {value : α} :
    ∀ {entries : Dictionary α}, find? key entries = some value → (key, value) ∈ entries
  | (k, v) :: rest, h => by
    unfold find? at h
    split at h
    · next same => subst same; cases h; exact List.mem_cons_self
    · exact List.mem_cons_of_mem _ (mem_of_find? h)

/-- A new entry is the one stored or was there before. -/
theorem mem_insert {key : String} {value : α} {entry : String × α} :
    ∀ {entries : Dictionary α}, entry ∈ insert key value entries →
      entry = (key, value) ∨ entry ∈ entries
  | [], h => by simpa [insert] using h
  | (k, v) :: rest, h => by
    unfold insert at h
    split at h
    · simpa using h
    · split at h
      · rcases List.mem_cons.1 h with h | h
        · exact .inl h
        · exact .inr (List.mem_cons_of_mem _ h)
      · rcases List.mem_cons.1 h with h | h
        · exact .inr (h ▸ List.mem_cons_self)
        · exact (mem_insert h).imp_right (List.mem_cons_of_mem _)

theorem sorted_nil : Sorted ([] : Dictionary α) := List.Pairwise.nil

/-- Of two different names one comes first. -/
theorem lt_of_not_lt_of_ne {a b : String} (h : ¬ a < b) (ne : a ≠ b) : b < a :=
  Std.lt_of_le_of_ne (String.not_lt.1 h) ne.symm

theorem Sorted.insert {key : String} {value : α} :
    ∀ {entries : Dictionary α}, Sorted entries → Sorted (insert key value entries)
  | [], _ => List.pairwise_singleton _ _
  | (k, v) :: rest, h => by
    have ⟨first, others⟩ := List.pairwise_cons.1 h
    unfold Dictionary.insert
    split
    · next less =>
      refine List.pairwise_cons.2 ⟨?_, h⟩
      intro entry mem
      rcases List.mem_cons.1 mem with rfl | mem
      · exact less
      · exact Std.lt_trans less (first entry mem)
    · next notLess =>
      split
      · next same =>
        subst same
        exact List.pairwise_cons.2 ⟨first, others⟩
      · next ne =>
        refine List.pairwise_cons.2 ⟨?_, Sorted.insert others⟩
        intro entry mem
        rcases mem_insert mem with rfl | mem
        · exact lt_of_not_lt_of_ne notLess ne
        · exact first entry mem

theorem Sorted.insertNew {key : String} {value : α} {entries : Dictionary α}
    (h : Sorted entries) : Sorted (insertNew key value entries) := by
  unfold Dictionary.insertNew
  split
  · exact h
  · exact h.insert

theorem Sorted.insertAll {entries : Dictionary α} :
    ∀ {given : Dictionary α}, Sorted entries → Sorted (insertAll given entries) := by
  intro given
  induction given generalizing entries with
  | nil => exact id
  | cons entry rest ih => exact fun h => ih h.insert

/-- However the pairs come, their dictionary is in order. -/
theorem sorted_ofList (given : List (String × α)) : Sorted (ofList given) :=
  sorted_nil.insertAll

@[simp] theorem find?_mapValues (f : α → β) (key : String) :
    ∀ entries : Dictionary α, find? key (mapValues f entries) = (find? key entries).map f
  | [] => rfl
  | (k, v) :: rest => by
    have ih := find?_mapValues f key rest
    simp only [mapValues] at ih
    simp only [mapValues, List.map_cons, find?]
    split <;> simp [ih]

theorem find?_eq_none_of_forall_ne {key : String} :
    ∀ {entries : Dictionary α}, (∀ entry ∈ entries, entry.1 ≠ key) → find? key entries = none
  | [], _ => rfl
  | (k, v) :: rest, h => by
    have first : k ≠ key := h _ List.mem_cons_self
    have others := find?_eq_none_of_forall_ne fun entry mem =>
      h entry (List.mem_cons_of_mem (k, v) mem)
    simp [find?, first.symm, others]

/-- In a sorted dictionary an entry is found under its name. -/
theorem Sorted.find?_of_mem {key : String} {value : α} :
    ∀ {entries : Dictionary α}, Sorted entries → (key, value) ∈ entries →
      find? key entries = some value
  | (k, v) :: rest, h, mem => by
    have ⟨first, others⟩ := List.pairwise_cons.1 h
    rcases List.mem_cons.1 mem with same | later
    · cases same
      simp [find?]
    · have ne : key ≠ k := by
        intro same
        subst same
        exact Std.lt_irrefl (first (key, value) later)
      simp [find?, ne, Sorted.find?_of_mem others later]

end Dictionary

end GraphQuery
