import GraphQuery.Proofs.ScannedNodes

/-!
# Loading an object and showing it again

An object that is loaded and shown again is the object it was, but for stray types: an `@type` that
is no string goes, from the object and from every object that is read as a sub-query in it. Nothing
else changes, so the object is shown as it was exactly when no type is stray, and the scan finds in
it what it found before.

Key definitions: `Json.strip`, `Json.ReadsQuery`, `Json.Typed`.
Key theorems: `Tree.raw_ofFields`, `Json.strip_eq_self_iff`, `Store.load_raw`.
-/

namespace GraphQuery

namespace Json

mutual

/-- The fields of an object of some kind without stray types, its own and those of its sub-queries.
-/
def stripFields (kind : Option String) : List (String × Json) → List (String × Json)
  | [] => []
  | (key, value) :: rest =>
    if key = "@type" ∧ value.text? = none then stripFields kind rest
    else (key, stripField kind key value) :: stripFields kind rest

/-- A field of an object of some kind without the stray types in it: where sub-queries stand, those
of an object and those of an array that holds objects only. -/
def stripField (kind : Option String) (key : String) : Json → Json
  | .obj fields =>
    if Tree.holdsQueries kind key then .obj (stripFields (kindOf fields) fields) else .obj fields
  | .arr items =>
    if Tree.holdsQueries kind key && items.all isObject then .arr (stripItems items)
    else .arr items
  | json => json

def stripItems : List Json → List Json
  | [] => []
  | .obj fields :: rest => .obj (stripFields (kindOf fields) fields) :: stripItems rest
  | item :: rest => item :: stripItems rest

end

/-- An object without stray types. -/
def strip (fields : Dictionary Json) : Json := .obj (stripFields (kindOf fields) fields)

/-- An object is read to have another as one of its sub-queries. -/
inductive ReadsQuery (fields inner : Dictionary Json) : Prop where
  | single {key : String} : (key, .obj inner) ∈ fields →
    Tree.holdsQueries (kindOf fields) key = true → ReadsQuery fields inner
  | listed {key : String} {items : List Json} : (key, .arr items) ∈ fields →
    Tree.holdsQueries (kindOf fields) key = true → items.all isObject = true →
    .obj inner ∈ items → ReadsQuery fields inner

/-- The `@type` of an object, if it has one, is a string. -/
def Typed (fields : Dictionary Json) : Prop := ∀ json, ("@type", json) ∈ fields → json.text? ≠ none

/-! ### The order of what is left -/

theorem keys_stripFields_sublist (kind : Option String) : ∀ fields : Dictionary Json,
    (Dictionary.keys (stripFields kind fields)).Sublist (Dictionary.keys fields)
  | [] => .slnil
  | (key, value) :: rest => by
    have ih := keys_stripFields_sublist kind rest
    unfold stripFields
    by_cases stray : key = "@type" ∧ value.text? = none
    · rw [if_pos stray]
      exact ih.cons key
    · rw [if_neg stray]
      exact ih.cons_cons key

theorem sorted_stripFields (kind : Option String) {fields : Dictionary Json}
    (sorted : fields.Sorted) : Dictionary.Sorted (stripFields kind fields) :=
  List.pairwise_map.1 ((List.pairwise_map.2 sorted).sublist (keys_stripFields_sublist kind fields))

/-- The type that is left is the kind. -/
theorem find?_type_stripFields (kind : Option String) : ∀ {fields : Dictionary Json},
    fields.Sorted → Dictionary.find? "@type" (stripFields kind fields) = (kindOf fields).map .str
  | [], _ => rfl
  | (key, value) :: rest, sorted => by
    have ⟨first, others⟩ := List.pairwise_cons.1 sorted
    have ih := find?_type_stripFields kind others
    by_cases same : key = "@type"
    · subst same
      have later : Dictionary.find? "@type" rest = none :=
        Dictionary.find?_eq_none_of_forall_ne fun entry mem same =>
          Std.lt_irrefl (same ▸ first entry mem)
      rw [kindOf, later] at ih
      cases value with
      | str s => rfl
      | _ =>
        rw [stripFields, if_pos ⟨rfl, rfl⟩, ih]
        rfl
    · have other : ¬(key = "@type" ∧ value.text? = none) := fun stray => same stray.1
      rw [stripFields, if_neg other, Dictionary.find?, if_neg (Ne.symm same), ih, kindOf, kindOf,
        Dictionary.find?, if_neg (Ne.symm same)]

end Json

namespace Tree

open Json (stripFields stripField stripItems strip)

/-! ### What is read, shown again -/

/-- The kind goes back to where it was among the other fields. -/
theorem raw_ofFields_of {fields : Dictionary Json} (sorted : fields.Sorted)
    (same : Dictionary.erase "@type" (stripFields (Json.kindOf fields) fields) =
      rawFields (ofFieldList (Json.kindOf fields) fields)) :
    (ofFields fields).raw = strip fields := by
  have noType := rawFields_ne_type (ofFieldList_ne_type (Json.kindOf fields) fields)
  have order := Json.sorted_stripFields (Json.kindOf fields) sorted
  have found := Json.find?_type_stripFields (Json.kindOf fields) sorted
  show Json.obj (withKind (Json.kindOf fields) (rawFields (ofFieldList _ fields))) = .obj _
  rw [← same] at noType ⊢
  cases kind : Json.kindOf fields with
  | none =>
    rw [kind] at order found
    refine congrArg Json.obj (Dictionary.erase_of_forall_ne fun entry mem type => ?_)
    obtain ⟨key, value⟩ := entry
    obtain rfl : key = "@type" := type
    rw [order.find?_of_mem mem] at found
    cases found
  | some kind₁ =>
    rw [kind] at order found noType
    rw [withKind_eq_insert noType, order.insert_erase found]

mutual

theorem rawBranch_ofField (kind : Option String) (key : String) : ∀ json : Json, json.Ordered →
    rawBranch (ofField kind key json) = stripField kind key json
  | .obj fields, ordered => by
    by_cases holds : holdsQueries kind key = true
    · have shown : (ofFields fields).raw = strip fields :=
        raw_ofFields_of ordered.1 (erase_type_stripFields (Json.kindOf fields) fields ordered.2)
      rw [ofField_obj holds, stripField, if_pos holds]
      exact shown
    · rw [ofField_of_not_holds (by simpa using holds), stripField, if_neg holds]
      rfl
  | .arr items, ordered => by
    by_cases holds : (holdsQueries kind key && items.all Json.isObject) = true
    · have ⟨holds₁, objects⟩ := Bool.and_eq_true_iff.1 holds
      rw [ofField_arr holds₁ objects, stripField, if_pos holds, rawBranch,
        rawAll_ofItems items ordered objects]
    · rw [ofField, stripField, if_neg holds, if_neg holds]
      rfl
  | .null, _ | .bool _, _ | .number _, _ | .str _, _ => rfl

/-- The fields of the node are those that are left but for the kind. -/
theorem erase_type_stripFields (kind : Option String) : ∀ fields : Dictionary Json,
    Json.OrderedFields fields →
      Dictionary.erase "@type" (stripFields kind fields) = rawFields (ofFieldList kind fields)
  | [], _ => rfl
  | (key, value) :: rest, ordered => by
    have first := rawBranch_ofField kind key value ordered.1
    have others := erase_type_stripFields kind rest ordered.2
    rw [ofFieldList]
    by_cases type : key = "@type"
    · rw [if_pos type, ← others]
      by_cases stray : key = "@type" ∧ value.text? = none
      · rw [stripFields, if_pos stray]
      · rw [stripFields, if_neg stray, type]
        exact List.filter_cons_of_neg (by simp)
    · have other : ¬(key = "@type" ∧ value.text? = none) := fun stray => type stray.1
      rw [if_neg type, stripFields, if_neg other, Dictionary.erase_cons_of_ne _ _ type, others,
        rawFields, first]

theorem rawAll_ofItems : ∀ items : List Json, Json.OrderedItems items →
    items.all Json.isObject = true → rawAll (ofItems items) = stripItems items
  | [], _, _ => rfl
  | .obj fields :: rest, ordered, objects => by
    have shown : (ofFields fields).raw = strip fields := raw_ofFields_of ordered.1.1
      (erase_type_stripFields (Json.kindOf fields) fields ordered.1.2)
    have others := rawAll_ofItems rest ordered.2 objects
    show (ofFields fields).raw :: rawAll (ofItems rest) = strip fields :: stripItems rest
    rw [shown, others]

end

/-- **An object is shown again without stray types.** -/
theorem raw_ofFields {fields : Dictionary Json} (ordered : (Json.obj fields).Ordered) :
    (ofFields fields).raw = strip fields :=
  raw_ofFields_of ordered.1 (erase_type_stripFields (Json.kindOf fields) fields ordered.2)

end Tree

namespace Json

/-! ### Objects without stray types -/

variable {fields inner : Dictionary Json}

/-- Nothing goes from an object if no type in it is stray and nothing goes from its fields. -/
theorem stripFields_eq_self_iff (kind : Option String) : ∀ fields : Dictionary Json,
    stripFields kind fields = fields ↔
      Typed fields ∧ ∀ field ∈ fields, stripField kind field.1 field.2 = field.2
  | [] => by simp [stripFields, Typed]
  | (key, value) :: rest => by
    have ih := stripFields_eq_self_iff kind rest
    have typed : Typed ((key, value) :: rest) ↔
        ¬(key = "@type" ∧ value.text? = none) ∧ Typed rest := by
      simp only [Typed, List.mem_cons, Prod.mk.injEq, not_and]
      constructor
      · intro all
        exact ⟨fun same => all value (.inl ⟨same.symm, rfl⟩), fun json mem => all json (.inr mem)⟩
      · rintro ⟨first, others⟩ json (⟨same, rfl⟩ | mem)
        · exact first same.symm
        · exact others json mem
    rw [typed, stripFields, List.forall_mem_cons]
    by_cases stray : key = "@type" ∧ value.text? = none
    · -- The object would have lost a field.
      have shorter := (keys_stripFields_sublist kind rest).length_le
      simp only [Dictionary.keys, List.length_map] at shorter
      rw [if_pos stray]
      constructor
      · intro same
        have longer := congrArg List.length same
        rw [List.length_cons] at longer
        omega
      · exact fun all => absurd stray all.1.1
    · rw [if_neg stray, List.cons.injEq, ih]
      simp only [Prod.mk.injEq, true_and, stray, not_false_eq_true]
      exact and_left_comm

theorem stripItems_eq_self_iff : ∀ items : List Json,
    stripItems items = items ↔ ∀ inner, .obj inner ∈ items → strip inner = .obj inner
  | [] => by simp [stripItems]
  | item :: rest => by
    have ih := stripItems_eq_self_iff rest
    cases item with
    | obj fields =>
      show strip fields :: stripItems rest = .obj fields :: rest ↔ _
      rw [List.cons.injEq, ih]
      constructor
      · rintro ⟨first, others⟩ inner mem
        rcases List.mem_cons.1 mem with same | mem
        · cases same
          exact first
        · exact others inner mem
      · intro all
        exact ⟨all fields List.mem_cons_self, fun inner mem =>
          all inner (List.mem_cons_of_mem _ mem)⟩
    | _ => simp [stripItems, ih]

theorem stripField_obj_eq_self_iff {kind : Option String} {key : String} :
    stripField kind key (.obj inner) = .obj inner ↔
      (Tree.holdsQueries kind key = true → strip inner = .obj inner) := by
  rw [stripField]
  by_cases holds : Tree.holdsQueries kind key = true
  · rw [if_pos holds]
    exact ⟨fun same _ => same, fun same => same holds⟩
  · rw [if_neg holds]
    exact ⟨fun _ held => absurd held holds, fun _ => rfl⟩

theorem stripField_arr_eq_self_iff {kind : Option String} {key : String} {items : List Json} :
    stripField kind key (.arr items) = .arr items ↔
      (Tree.holdsQueries kind key = true → items.all isObject = true →
        ∀ inner, .obj inner ∈ items → strip inner = .obj inner) := by
  rw [stripField, ← stripItems_eq_self_iff]
  by_cases holds : (Tree.holdsQueries kind key && items.all isObject) = true
  · have ⟨holds₁, objects⟩ := Bool.and_eq_true_iff.1 holds
    rw [if_pos holds, arr.injEq]
    exact ⟨fun same _ _ => same, fun same => same holds₁ objects⟩
  · rw [if_neg holds]
    refine ⟨fun _ held objects => ?_, fun _ => rfl⟩
    exact absurd (Bool.and_eq_true_iff.2 ⟨held, objects⟩) holds

/-- An object loses nothing if its own type is not stray and its sub-queries lose nothing. -/
theorem strip_eq_self_iff_typed : strip fields = .obj fields ↔
    Typed fields ∧ ∀ inner, ReadsQuery fields inner → strip inner = .obj inner := by
  rw [strip, obj.injEq, stripFields_eq_self_iff]
  refine and_congr_right fun _ => ⟨?_, ?_⟩
  · rintro each inner (⟨mem, holds⟩ | ⟨mem, holds, objects, listed⟩)
    · exact stripField_obj_eq_self_iff.1 (each _ mem) holds
    · exact stripField_arr_eq_self_iff.1 (each _ mem) holds objects inner listed
  · rintro parts ⟨key, value⟩ mem
    cases value with
    | obj inner => exact stripField_obj_eq_self_iff.2 fun holds => parts inner (.single mem holds)
    | arr items =>
      exact stripField_arr_eq_self_iff.2 fun holds objects inner listed =>
        parts inner (.listed mem holds objects listed)
    | _ => rfl

theorem ReadsQuery.sizeOf_lt (reads : ReadsQuery fields inner) : sizeOf inner < sizeOf fields := by
  have less : sizeOf (obj inner) < sizeOf (obj fields) := by
    rcases reads with ⟨mem, -⟩ | ⟨mem, -, -, listed⟩
    · exact sizeOf_lt_of_mem_fields mem
    · have outer := sizeOf_lt_of_mem_fields mem
      have within : sizeOf (obj inner) < sizeOf (arr _) := sizeOf_lt_of_mem_parts listed
      exact Nat.lt_trans within outer
  simp only [obj.sizeOf_spec] at less
  omega

/-- **An object loses nothing exactly when no type is stray**, neither its own nor one in a query
that it is read to have, at any depth. -/
theorem strip_eq_self_iff (fields : Dictionary Json) : strip fields = .obj fields ↔
    ∀ part, Relation.ReflTransGen ReadsQuery fields part → Typed part := by
  rw [strip_eq_self_iff_typed]
  constructor
  · rintro ⟨typed, parts⟩ part path
    rcases path.cases_head with rfl | ⟨inner, reads, path⟩
    · exact typed
    · exact (strip_eq_self_iff inner).1 (parts inner reads) part path
  · intro typed
    refine ⟨typed fields .refl, fun inner reads => ?_⟩
    exact (strip_eq_self_iff inner).2 fun part path => typed part (path.head reads)
termination_by sizeOf fields
decreasing_by all_goals exact reads.sizeOf_lt

end Json

namespace Store

/-- **Loading keeps everything but stray types.** An object that is loaded, in any store, and shown
again is the object without stray types; so it is the object itself exactly when there are none;
and the scan finds an update in it exactly when it finds one in the object. -/
theorem load_raw (s : Store) {fields : Dictionary Json} (ordered : (Json.obj fields).Ordered) :
    (s.load fields).1.raw (s.load fields).2 = Json.strip fields ∧
    ((s.load fields).1.raw (s.load fields).2 = .obj fields ↔
      ∀ part, Relation.ReflTransGen Json.ReadsQuery fields part → Json.Typed part) ∧
    hasUpdate ((s.load fields).1.raw (s.load fields).2) = hasUpdate (.obj fields) := by
  have shown : (s.load fields).1.raw (s.load fields).2 = (Tree.ofFields fields).raw :=
    congrArg Tree.raw (s.tree_plant (.ofFields fields))
  have stripped := Tree.raw_ofFields ordered
  rw [shown]
  refine ⟨stripped, ?_, Tree.hasUpdate_ofFields fields⟩
  rw [stripped]
  exact Json.strip_eq_self_iff fields

/-- Stray types in a query of a list and where no queries stand. Without its kind an object has no
list of queries under `and`, so what stands there is kept. -/
theorem load_raw_stray : ∃ fields shown,
    fields = [("@type", .str "And"), ("and", .arr [.obj [("@type", .int 5),
      ("and", .arr [.obj [("@type", .null)]]),
      ("query", .obj [("@type", .bool true), ("a", .str "AddTriple")])]])] ∧
    shown = Json.obj [("@type", .str "And"), ("and", .arr [.obj [
      ("and", .arr [.obj [("@type", .null)]]), ("query", .obj [("a", .str "AddTriple")])]])] ∧
    (Json.obj fields).Ordered ∧ (empty.load fields).1.raw (empty.load fields).2 = shown ∧
    shown ≠ .obj fields ∧
    hasUpdate ((empty.load fields).1.raw (empty.load fields).2) = hasUpdate (.obj fields) := by
  have ordered : (Json.obj [("@type", .str "And"), ("and", .arr [.obj [("@type", .int 5),
      ("and", .arr [.obj [("@type", .null)]]),
      ("query", .obj [("@type", .bool true), ("a", .str "AddTriple")])]])]).Ordered := by decide
  obtain ⟨shown, -, same⟩ := load_raw empty ordered
  exact ⟨_, _, rfl, rfl, ordered, shown.trans rfl, by decide, same⟩

end Store

end GraphQuery
