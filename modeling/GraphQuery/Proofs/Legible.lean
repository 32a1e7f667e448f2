import GraphQuery.Proofs.Branch
import GraphQuery.Query.Tree

/-!
# Trees that are read back from their raw form

Which fields of an object hold sub-queries is told by their name, by the kind of the object and by
what they hold. A tree is legible when each of its fields is what that rule makes of its JSON. What
is read from an object is legible, and a legible tree is read back from its raw form.

Key definitions: `Tree.Fits`, `Tree.Legible`, `Tree.Reads`.
Key theorems: `Tree.legible_ofFields`, `Tree.Legible.reads_raw`.
-/

namespace GraphQuery

namespace Tree

/-- A field that is what a node of some kind is read to have there. -/
def Fits (kind : Option String) : String × Branch Tree → Prop
  | (key, .value json) => key ≠ "@type" ∧ ofField kind key json = .value json
  | (key, .query _) => holdsQueries kind key = true
  | (key, .queries _) => holdsQueries kind key = true

/-- At every depth each field is what it is read as. -/
inductive Legible : Tree → Prop where
  | node {kind : Option String} {fields : Dictionary (Branch Tree)} :
    (∀ field ∈ fields, Fits kind field) → (∀ field ∈ fields, ∀ t ∈ field.2.all, Legible t) →
    Legible (.node kind fields)

theorem legible_empty : Legible .empty := .node nofun nofun

theorem legible_of_each {kind : Option String} {fields : Dictionary (Branch Tree)}
    (each : ∀ field ∈ fields, Fits kind field ∧ ∀ t ∈ field.2.all, t.Legible) :
    (node kind fields).Legible :=
  .node (fun field mem => (each field mem).1) fun field mem => (each field mem).2

/-- The kind is no field. -/
theorem Fits.ne_type {kind : Option String} {field : String × Branch Tree}
    (fits : Fits kind field) : field.1 ≠ "@type" := by
  have none : holdsQueries kind "@type" = false := by simp [holdsQueries]
  obtain ⟨key, branch⟩ := field
  cases branch with
  | value json => exact fits.1
  | query q =>
    rintro rfl
    exact absurd fits (by simp [Fits, none])
  | queries qs =>
    rintro rfl
    exact absurd fits (by simp [Fits, none])

/-! ### What is read -/

variable {kind : Option String} {key : String}

theorem ofField_obj (holds : holdsQueries kind key = true) (fields : List (String × Json)) :
    ofField kind key (.obj fields) = .query (ofFields fields) := by
  rw [ofField, if_pos holds]
  rfl

theorem ofField_arr (holds : holdsQueries kind key = true) {items : List Json}
    (objects : items.all Json.isObject = true) :
    ofField kind key (.arr items) = .queries (ofItems items) := by
  rw [ofField, if_pos (by rw [holds, objects]; rfl)]

/-- Where no sub-queries stand, a field is plain. -/
theorem ofField_of_not_holds (none : holdsQueries kind key = false) (json : Json) :
    ofField kind key json = .value json := by
  cases json <;> simp [ofField, none]

mutual

theorem legible_ofField (kind : Option String) {key : String} (ne : key ≠ "@type") :
    ∀ json, Fits kind (key, ofField kind key json) ∧
      ∀ t ∈ (ofField kind key json).all, t.Legible
  | .obj fields => by
    by_cases holds : holdsQueries kind key = true
    · have read : (ofFields fields).Legible :=
        legible_of_each (legible_ofFieldList (Json.kindOf fields) fields)
      rw [ofField_obj holds]
      refine ⟨holds, fun t mem => ?_⟩
      obtain rfl := List.mem_singleton.1 mem
      exact read
    · have plain := ofField_of_not_holds (by simpa using holds) (.obj fields)
      rw [plain]
      exact ⟨⟨ne, plain⟩, nofun⟩
  | .arr items => by
    by_cases holds : (holdsQueries kind key && items.all Json.isObject) = true
    · have ⟨holds, objects⟩ := Bool.and_eq_true_iff.1 holds
      rw [ofField_arr holds objects]
      exact ⟨holds, legible_ofItems items⟩
    · have plain : ofField kind key (.arr items) = .value (.arr items) := by
        rw [ofField, if_neg holds]
      rw [plain]
      exact ⟨⟨ne, plain⟩, nofun⟩
  | .null | .bool _ | .number _ | .str _ => by
    simp only [ofField]
    exact ⟨⟨ne, by simp only [ofField]⟩, nofun⟩

theorem legible_ofFieldList (kind : Option String) : ∀ fields : List (String × Json),
    ∀ field ∈ ofFieldList kind fields, Fits kind field ∧ ∀ t ∈ field.2.all, t.Legible
  | [] => nofun
  | (key, json) :: rest => by
    have others := legible_ofFieldList kind rest
    rw [ofFieldList]
    by_cases same : key = "@type"
    · rw [if_pos same]
      exact others
    · rw [if_neg same]
      exact List.forall_mem_cons.2 ⟨legible_ofField kind same json, others⟩

theorem legible_ofItems : ∀ items : List Json, ∀ t ∈ ofItems items, t.Legible
  | [] => nofun
  | .obj fields :: rest => by
    have read : (ofFields fields).Legible :=
      legible_of_each (legible_ofFieldList (Json.kindOf fields) fields)
    exact List.forall_mem_cons.2 ⟨read, legible_ofItems rest⟩
  | .null :: rest | .bool _ :: rest | .number _ :: rest | .str _ :: rest | .arr _ :: rest =>
    legible_ofItems rest

end

/-- **What is read is legible.** -/
theorem legible_ofFields (fields : Dictionary Json) : (ofFields fields).Legible :=
  legible_of_each (legible_ofFieldList (Json.kindOf fields) fields)

/-! ### Reading back -/

/-- Without an `@type` every field is read. -/
theorem ofFieldList_eq_map (kind : Option String) : ∀ {fields : List (String × Json)},
    (∀ field ∈ fields, field.1 ≠ "@type") →
      ofFieldList kind fields = fields.map fun field => (field.1, ofField kind field.1 field.2)
  | [], _ => rfl
  | (key, json) :: rest, noType => by
    have ⟨first, others⟩ := List.forall_mem_cons.1 noType
    rw [ofFieldList, if_neg first, ofFieldList_eq_map kind others, List.map_cons]

/-- An `@type` is no field of the node. -/
theorem ofFieldList_insert_type (kind : Option String) (json : Json) :
    ∀ fields : Dictionary Json, ofFieldList kind (fields.insert "@type" json) =
      ofFieldList kind fields
  | [] => rfl
  | (key, value) :: rest => by
    have ih := ofFieldList_insert_type kind json rest
    rw [Dictionary.insert]
    by_cases less : "@type" < key
    · rw [if_pos less, ofFieldList, if_pos rfl]
    · by_cases same : "@type" = key
      · rw [if_neg less, if_pos same, ofFieldList, if_pos rfl, ofFieldList, if_pos same.symm]
      · rw [if_neg less, if_neg same, ofFieldList, ofFieldList, ih]

theorem withKind_eq_insert {fields : Dictionary Json}
    (noType : ∀ field ∈ fields, field.1 ≠ "@type") (kind : String) :
    withKind (some kind) fields = fields.insert "@type" (.str kind) := by
  have new : Dictionary.contains "@type" fields = false := by
    rw [Dictionary.contains, Dictionary.find?_eq_none_of_forall_ne noType]
    rfl
  rw [withKind, Dictionary.insertNew, new, if_neg Bool.false_ne_true]

theorem find?_type_withKind (kind : Option String) {fields : Dictionary Json}
    (noType : ∀ field ∈ fields, field.1 ≠ "@type") :
    Dictionary.find? "@type" (withKind kind fields) = kind.map .str := by
  cases kind with
  | none => exact Dictionary.find?_eq_none_of_forall_ne noType
  | some kind =>
    rw [withKind_eq_insert noType, Dictionary.find?_insert_self]
    rfl

theorem kindOf_withKind (kind : Option String) {fields : Dictionary Json}
    (noType : ∀ field ∈ fields, field.1 ≠ "@type") : Json.kindOf (withKind kind fields) = kind := by
  rw [Json.kindOf, find?_type_withKind kind noType]
  cases kind <;> rfl

/-- A kind and other fields are read as such. -/
theorem ofFields_withKind (kind : Option String) {fields : Dictionary Json}
    (noType : ∀ field ∈ fields, field.1 ≠ "@type") : ofFields (withKind kind fields) =
      .node kind (fields.map fun field => (field.1, ofField kind field.1 field.2)) := by
  have found := kindOf_withKind kind noType
  cases kind with
  | none =>
    have found : Json.kindOf fields = none := found
    rw [withKind, ofFields, found, ofFieldList_eq_map none noType]
  | some kind =>
    rw [withKind_eq_insert noType] at found ⊢
    rw [ofFields, found, ofFieldList_insert_type, ofFieldList_eq_map _ noType]

theorem rawFields_ne_type {fields : Dictionary (Branch Tree)}
    (noType : ∀ field ∈ fields, field.1 ≠ "@type") :
    ∀ field ∈ rawFields fields, field.1 ≠ "@type" := by
  rw [rawFields_eq_mapValues]
  exact List.forall_mem_map.2 noType

theorem get?_type_raw (kind : Option String) {fields : Dictionary (Branch Tree)}
    (noType : ∀ field ∈ fields, field.1 ≠ "@type") :
    (node kind fields).raw.get? "@type" = kind.map .str :=
  find?_type_withKind kind (rawFields_ne_type noType)

/-- The raw form, field by field. -/
theorem get?_raw (kind : Option String) {fields : Dictionary (Branch Tree)}
    (noType : ∀ field ∈ fields, field.1 ≠ "@type") {key : String} (ne : key ≠ "@type") :
    (node kind fields).raw.get? key = (Dictionary.find? key fields).map rawBranch := by
  have others : Dictionary.find? key (rawFields fields) =
      (Dictionary.find? key fields).map rawBranch := by
    rw [rawFields_eq_mapValues, Dictionary.find?_mapValues]
  cases kind with
  | none => exact others
  | some kind =>
    show Dictionary.find? key (withKind (some kind) (rawFields fields)) = _
    rw [withKind_eq_insert (rawFields_ne_type noType), Dictionary.find?_insert_of_ne ne]
    exact others

/-- The query that an object is. -/
def Reads (json : Json) (t : Tree) : Prop := ∃ fields, json = .obj fields ∧ ofFields fields = t

theorem ofItems_rawAll : ∀ {ts : List Tree}, (∀ t ∈ ts, Reads t.raw t) →
    (rawAll ts).all Json.isObject = true ∧ ofItems (rawAll ts) = ts
  | [], _ => ⟨rfl, rfl⟩
  | t :: ts, read => by
    have ⟨first, others⟩ := List.forall_mem_cons.1 read
    obtain ⟨objects, same⟩ := ofItems_rawAll others
    obtain ⟨fields, raw, rfl⟩ := first
    rw [rawAll, raw]
    refine ⟨objects, ?_⟩
    rw [ofItems, same]
    rfl

theorem Fits.ofField_rawBranch {branch : Branch Tree} (fits : Fits kind (key, branch))
    (read : ∀ t ∈ branch.all, Reads t.raw t) : ofField kind key (rawBranch branch) = branch := by
  cases branch with
  | value json => exact fits.2
  | query q =>
    obtain ⟨fields, raw, same⟩ := read q (List.mem_singleton_self q)
    rw [rawBranch, raw, ofField_obj fits, same]
  | queries qs =>
    have read : ∀ t ∈ qs, Reads t.raw t := read
    obtain ⟨objects, same⟩ := ofItems_rawAll read
    rw [rawBranch, ofField_arr fits objects, same]

/-- **A legible tree is read back from its raw form.** -/
theorem Legible.reads_raw {t : Tree} (h : t.Legible) : Reads t.raw t := by
  induction h with
  | @node kind fields fits _ ih =>
    have noType := rawFields_ne_type fun field mem => (fits field mem).ne_type
    have same : (rawFields fields).map (fun field => (field.1, ofField kind field.1 field.2)) =
        fields := by
      rw [rawFields_eq_mapValues, Dictionary.mapValues, List.map_map]
      refine (List.map_congr_left fun field mem => ?_).trans (List.map_id fields)
      have read := (fits field mem).ofField_rawBranch (ih field mem)
      exact Prod.ext rfl read
    refine ⟨withKind kind (rawFields fields), rfl, ?_⟩
    rw [ofFields_withKind kind noType, same]

end Tree

end GraphQuery
