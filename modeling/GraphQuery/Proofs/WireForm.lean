import GraphQuery.Path.Pattern

/-!
# Reading a pattern from its wire form

The wire form of a pattern says which pattern it is: it can be read back, and the reader takes
nothing else. The kind of step is told by the `@type`, and a step along any predicate is one of the
same kind that names no predicate; a step along the predicate with the empty name has another form.
A repetition count is a whole number of 64 bits.

Key definitions: `Pattern.ofCount?`, `Pattern.ofJson?`.
Key theorems: `Pattern.ofJson?_eq_some_iff`, `Pattern.toJson_inj`.
-/

namespace GraphQuery

namespace Pattern

/-- The repetition count that a number of 64 bits stands for. -/
def ofCount? : Json → Option UInt64
  | .number (.int (.ofNat n)) => if n < UInt64.size then some (.ofNat n) else none
  | _ => none

mutual

/-- The pattern that has a given wire form. -/
def ofJson? : Json → Option Pattern
  | .obj [("@type", .str "PathPredicate"), ("predicate", .str name)] => some (.forward name)
  | .obj [("@type", .str "PathPredicate")] => some .anyStep
  | .obj [("@type", .str "InversePathPredicate"), ("predicate", .str name)] =>
    some (.backward name)
  | .obj [("@type", .str "PathSequence"), ("sequence", .arr steps)] =>
    (ofJsonAll? steps).map .sequence
  | .obj [("@type", .str "PathOr"), ("or", .arr branches)] => (ofJsonAll? branches).map .choice
  | .obj [("@type", .str "PathStar"), ("star", inner)] => (ofJson? inner).map .star
  | .obj [("@type", .str "PathPlus"), ("plus", inner)] => (ofJson? inner).map .plus
  | .obj [("@type", .str "PathTimes"), ("from", low), ("times", inner), ("to", high)] => do
    return .times (← ofJson? inner) (← ofCount? low) (← ofCount? high)
  | _ => none

def ofJsonAll? : List Json → Option (List Pattern)
  | [] => some []
  | item :: rest => do return (← ofJson? item) :: (← ofJsonAll? rest)

end

variable {json : Json} {p : Pattern}

/-! ### What is written is read -/

/-- The numbers that are read as counts are the counts. -/
theorem ofCount?_eq_some_iff {n : UInt64} : ofCount? json = some n ↔ count n = json := by
  constructor
  · intro h
    unfold ofCount? at h
    split at h
    · next m =>
      obtain ⟨small, rfl⟩ : m < UInt64.size ∧ UInt64.ofNat m = n := by simpa using h
      rw [count, UInt64.toNat_ofNat_of_lt' small]
      rfl
    · cases h
  · rintro rfl
    simp [ofCount?, count, Json.int, n.toNat_lt_size]

@[simp] theorem ofCount?_count (n : UInt64) : ofCount? (count n) = some n :=
  ofCount?_eq_some_iff.2 rfl

mutual

/-- A pattern is read back from its wire form. -/
theorem ofJson?_toJson : ∀ p : Pattern, ofJson? p.toJson = some p
  | .forward name | .backward name => by simp [toJson, ofJson?]
  | .anyStep => by simp [toJson, ofJson?]
  | .sequence steps => by simp [toJson, ofJson?, ofJsonAll?_toJsonAll steps]
  | .choice branches => by simp [toJson, ofJson?, ofJsonAll?_toJsonAll branches]
  | .star inner | .plus inner => by simp [toJson, ofJson?, ofJson?_toJson inner]
  | .times inner low high => by simp [toJson, ofJson?, ofJson?_toJson inner]

theorem ofJsonAll?_toJsonAll : ∀ ps : List Pattern, ofJsonAll? (toJsonAll ps) = some ps
  | [] => by simp [toJsonAll, ofJsonAll?]
  | p :: ps => by simp [toJsonAll, ofJsonAll?, ofJson?_toJson p, ofJsonAll?_toJsonAll ps]

end

/-! ### Nothing else is read -/

mutual

/-- What is read as a pattern is the wire form of it. -/
theorem toJson_of_ofJson? (json : Json) (p : Pattern) (h : ofJson? json = some p) :
    p.toJson = json := by
  unfold ofJson? at h
  split at h
  -- A single step holds no pattern; the other forms hold patterns that were read.
  · cases h
    rfl
  · cases h
    rfl
  · cases h
    rfl
  · next steps =>
    obtain ⟨ps, read, rfl⟩ := Option.map_eq_some_iff.1 h
    rw [toJson, toJsonAll_of_ofJsonAll? steps ps read]
  · next branches =>
    obtain ⟨ps, read, rfl⟩ := Option.map_eq_some_iff.1 h
    rw [toJson, toJsonAll_of_ofJsonAll? branches ps read]
  · next inner =>
    obtain ⟨q, read, rfl⟩ := Option.map_eq_some_iff.1 h
    rw [toJson, toJson_of_ofJson? inner q read]
  · next inner =>
    obtain ⟨q, read, rfl⟩ := Option.map_eq_some_iff.1 h
    rw [toJson, toJson_of_ofJson? inner q read]
  · next low inner high =>
    obtain ⟨q, read, h⟩ := Option.bind_eq_some_iff.1 h
    obtain ⟨low₁, first, h⟩ := Option.bind_eq_some_iff.1 h
    obtain ⟨high₁, last, h⟩ := Option.bind_eq_some_iff.1 h
    cases h
    rw [toJson, toJson_of_ofJson? inner q read, ofCount?_eq_some_iff.1 first,
      ofCount?_eq_some_iff.1 last]
  · cases h

theorem toJsonAll_of_ofJsonAll? (items : List Json) (ps : List Pattern)
    (h : ofJsonAll? items = some ps) : toJsonAll ps = items := by
  cases items with
  | nil =>
    cases h
    rfl
  | cons item rest =>
    rw [ofJsonAll?] at h
    obtain ⟨p, read, h⟩ := Option.bind_eq_some_iff.1 h
    obtain ⟨ps, others, h⟩ := Option.bind_eq_some_iff.1 h
    cases h
    rw [toJsonAll, toJson_of_ofJson? item p read, toJsonAll_of_ofJsonAll? rest ps others]

end

/-- **Exactly the wire forms are read**, each as the pattern it is of. -/
theorem ofJson?_eq_some_iff : ofJson? json = some p ↔ p.toJson = json := by
  constructor
  · exact toJson_of_ofJson? json p
  · rintro rfl
    exact ofJson?_toJson p

/-- **The wire form of a pattern loses nothing**: different patterns have different wire forms,
whatever their names, counts and parts are. -/
theorem toJson_inj (p q : Pattern) : p.toJson = q.toJson ↔ p = q := by
  rw [← ofJson?_eq_some_iff, ofJson?_toJson, Option.some_inj, eq_comm]

/-- A step along the predicate with the empty name is no step along any predicate. -/
example : (forward "").toJson ≠ anyStep.toJson := by decide

end Pattern

end GraphQuery
