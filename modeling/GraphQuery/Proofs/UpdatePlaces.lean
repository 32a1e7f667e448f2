import GraphQuery.Proofs.BuiltTree
import GraphQuery.Proofs.Legible

/-!
# Where updates stand

The scan and the listing read a value in two ways. The scan goes down to the sub-queries of an
object: what stands under `query` and `consequent`, and the items of the lists under `and` and
`or`. The listing goes down to everything. Each finds exactly the updates on its way.

Key definitions: `Json.IsUpdate`, `Json.Within`, `Json.IsSubQuery`, `Json.StandsIn`.
Key theorems: `Json.mem_updatesIn_iff`, `Json.hasUpdate_iff_standsIn`, `Json.hasUpdate_withKind`.
-/

namespace GraphQuery

namespace Json

/-- An object that is an update itself. -/
def IsUpdate (json : Json) : Prop := json.kind?.any isUpdateKind = true

/-- The values directly inside a value. -/
def parts : Json → List Json
  | .arr items => items
  | .obj fields => fields.map Prod.snd
  | _ => []

/-- A value is another or stands in it, at any depth. -/
inductive Within (part : Json) : Json → Prop where
  | self : Within part part
  | inner {value json : Json} : value ∈ json.parts → Within part value → Within part json

/-- A value under a name where an object has a query or in a list where it has several. -/
def IsSubQuery (value : Json) (fields : Dictionary Json) : Prop :=
  (∃ key, HostKey key ∧ (key, value) ∈ fields) ∨
    ∃ (c : Combinator) (items : List Json), (c.key, .arr items) ∈ fields ∧ value ∈ items

/-- A value is a query or stands in it as a sub-query, at any depth. -/
inductive StandsIn (part : Json) : Json → Prop where
  | self : StandsIn part part
  | inner {value : Json} {fields : Dictionary Json} : value.IsSubQuery fields →
    StandsIn part value → StandsIn part (.obj fields)

/-! ### The listing -/

theorem sizeOf_lt_of_mem_parts {value json : Json} (mem : value ∈ json.parts) :
    sizeOf value < sizeOf json := by
  cases json with
  | arr items =>
    have less := List.sizeOf_lt_of_mem (show value ∈ items from mem)
    simp only [arr.sizeOf_spec]
    omega
  | obj fields =>
    obtain ⟨⟨key, _⟩, place, rfl⟩ := List.mem_map.1 mem
    have less := List.sizeOf_lt_of_mem place
    simp only [Prod.mk.sizeOf_spec, obj.sizeOf_spec] at less ⊢
    omega
  | _ => cases mem

theorem sizeOf_lt_of_mem_fields {fields : Dictionary Json} {key : String} {value : Json}
    (mem : (key, value) ∈ fields) : sizeOf value < sizeOf (obj fields) :=
  sizeOf_lt_of_mem_parts (List.mem_map_of_mem mem)

theorem updatesInItems_eq_flatMap : ∀ items : List Json,
    updatesInItems items = items.flatMap updatesIn
  | [] => rfl
  | item :: rest => by rw [updatesInItems, updatesInItems_eq_flatMap rest, List.flatMap_cons]

theorem updatesInFields_eq_flatMap (fields : List (String × Json)) :
    updatesInFields fields = (fields.map Prod.snd).flatMap updatesIn := by
  induction fields with
  | nil => rfl
  | cons field rest ih => rw [updatesInFields, ih, List.map_cons, List.flatMap_cons]

/-- The listing has the value itself and then what is inside it. -/
theorem updatesIn_eq (json : Json) :
    updatesIn json = (json.kind?.filter isUpdateKind).toList ++ json.parts.flatMap updatesIn := by
  cases json with
  | arr items =>
    rw [updatesIn, updatesInItems_eq_flatMap]
    rfl
  | obj fields =>
    rw [updatesIn, updatesInFields_eq_flatMap]
    rfl
  | _ => rfl

theorem within_iff {part json : Json} :
    part.Within json ↔ part = json ∨ ∃ value ∈ json.parts, part.Within value := by
  constructor
  · rintro (_ | ⟨mem, inside⟩)
    · exact .inl rfl
    · exact .inr ⟨_, mem, inside⟩
  · rintro (rfl | ⟨value, mem, inside⟩)
    · exact .self
    · exact .inner mem inside

/-- **The listing has the kinds of the updates in a value**, wherever in it they stand. -/
theorem mem_updatesIn_iff {kind : String} (json : Json) : kind ∈ updatesIn json ↔
    isUpdateKind kind = true ∧ ∃ part : Json, part.Within json ∧ part.kind? = some kind := by
  have inside : ∀ value ∈ json.parts, kind ∈ updatesIn value ↔
      isUpdateKind kind = true ∧ ∃ part : Json, part.Within value ∧ part.kind? = some kind :=
    fun value mem => mem_updatesIn_iff value
  have own : kind ∈ (json.kind?.filter isUpdateKind).toList ↔
      isUpdateKind kind = true ∧ json.kind? = some kind := by
    rw [Option.mem_toList, Option.filter_eq_some_iff, and_comm]
  rw [updatesIn_eq, List.mem_append, List.mem_flatMap, own]
  constructor
  · rintro (⟨update, same⟩ | ⟨value, mem, listed⟩)
    · exact ⟨update, json, .self, same⟩
    · obtain ⟨update, part, stands, same⟩ := (inside value mem).1 listed
      exact ⟨update, part, .inner mem stands, same⟩
  · rintro ⟨update, part, stands, same⟩
    rcases within_iff.1 stands with rfl | ⟨value, mem, stands⟩
    · exact .inl ⟨update, same⟩
    · exact .inr ⟨value, mem, (inside value mem).2 ⟨update, part, stands, same⟩⟩
termination_by sizeOf json
decreasing_by exact sizeOf_lt_of_mem_parts mem

theorem Within.trans {part value json : Json} (inner : part.Within value)
    (outer : value.Within json) : part.Within json := by
  induction outer with
  | self => exact inner
  | inner mem _ ih => exact .inner mem ih

theorem Within.of_mem_fields {part value : Json} {key : String} {fields : Dictionary Json}
    (inner : part.Within value) (mem : (key, value) ∈ fields) : part.Within (.obj fields) :=
  .inner (List.mem_map_of_mem mem) inner

theorem Within.of_mem_items {part value : Json} {items : List Json} (inner : part.Within value)
    (mem : value ∈ items) : part.Within (.arr items) := .inner mem inner

theorem isUpdate_iff {json : Json} :
    json.IsUpdate ↔ ∃ kind, json.kind? = some kind ∧ isUpdateKind kind = true := by
  rw [IsUpdate, Option.any_eq_true]

/-- Something is listed if there is an update at all. -/
theorem updatesIn_ne_nil_iff {json : Json} :
    updatesIn json ≠ [] ↔ ∃ part : Json, part.Within json ∧ part.IsUpdate := by
  constructor
  · intro some
    obtain ⟨kind, listed⟩ := List.exists_mem_of_ne_nil _ some
    obtain ⟨update, part, stands, same⟩ := (mem_updatesIn_iff json).1 listed
    exact ⟨part, stands, isUpdate_iff.2 ⟨kind, same, update⟩⟩
  · rintro ⟨part, stands, update⟩
    obtain ⟨kind, same, update⟩ := isUpdate_iff.1 update
    exact List.ne_nil_of_mem ((mem_updatesIn_iff json).2 ⟨update, part, stands, same⟩)

/-! ### The scan -/

theorem combinatorKey_iff {key : String} : (∃ c : Combinator, key = c.key) ↔
    key = "and" ∨ key = "or" := by
  constructor
  · rintro ⟨c, rfl⟩
    cases c
    · exact .inl rfl
    · exact .inr rfl
  · rintro (rfl | rfl)
    · exact ⟨.and, rfl⟩
    · exact ⟨.or, rfl⟩

theorem not_hostKey_combinator (c : Combinator) : ¬HostKey c.key := by
  cases c <;> unfold HostKey <;> decide

/-- One query under the name of a host, or several under that of a combination. -/
theorem isSubQuery_singleton_iff {value content : Json} {key : String} :
    value.IsSubQuery [(key, content)] ↔ (HostKey key ∧ value = content) ∨
      ((∃ c : Combinator, key = c.key) ∧ ∃ items, content = .arr items ∧ value ∈ items) := by
  simp only [IsSubQuery, List.mem_singleton, Prod.mk.injEq]
  constructor
  · rintro (⟨_, host, rfl, rfl⟩ | ⟨c, items, ⟨rfl, rfl⟩, mem⟩)
    · exact .inl ⟨host, rfl⟩
    · exact .inr ⟨⟨c, rfl⟩, items, rfl, mem⟩
  · rintro (⟨host, rfl⟩ | ⟨⟨c, rfl⟩, items, rfl, mem⟩)
    · exact .inl ⟨key, host, rfl, rfl⟩
    · exact .inr ⟨c, items, ⟨rfl, rfl⟩, mem⟩

theorem isSubQuery_cons_iff {value : Json} {field : String × Json} {rest : Dictionary Json} :
    value.IsSubQuery (field :: rest) ↔ value.IsSubQuery [field] ∨ value.IsSubQuery rest := by
  simp only [IsSubQuery, List.mem_cons, List.not_mem_nil, or_false]
  constructor
  · rintro (⟨key, host, same | mem⟩ | ⟨c, items, same | mem, inside⟩)
    · exact .inl (.inl ⟨key, host, same⟩)
    · exact .inr (.inl ⟨key, host, mem⟩)
    · exact .inl (.inr ⟨c, items, same, inside⟩)
    · exact .inr (.inr ⟨c, items, mem, inside⟩)
  · rintro ((⟨key, host, same⟩ | ⟨c, items, same, inside⟩) |
      (⟨key, host, mem⟩ | ⟨c, items, mem, inside⟩))
    · exact .inl ⟨key, host, .inl same⟩
    · exact .inr ⟨c, items, .inl same, inside⟩
    · exact .inl ⟨key, host, .inr mem⟩
    · exact .inr ⟨c, items, .inr mem, inside⟩

theorem branchesHaveUpdate_iff {content : Json} : branchesHaveUpdate content = true ↔
    ∃ items, content = .arr items ∧ ∃ item ∈ items, hasUpdate item = true := by
  cases content with
  | arr items => simp [branchesHaveUpdate, anyHasUpdate_eq_any]
  | _ => simp [branchesHaveUpdate]

theorem fieldHasUpdate_iff {key : String} {content : Json} :
    fieldsHaveUpdate [(key, content)] = true ↔
      ∃ value : Json, value.IsSubQuery [(key, content)] ∧ hasUpdate value = true := by
  simp only [isSubQuery_singleton_iff]
  rw [fieldsHaveUpdate, fieldsHaveUpdate, Bool.or_false]
  by_cases host : key = "query" ∨ key = "consequent"
  · have other : ¬∃ c : Combinator, key = c.key := by
      rintro ⟨c, rfl⟩
      exact not_hostKey_combinator c host
    have isHost : HostKey key := host
    rw [if_pos host]
    simp [isHost, other]
  · have notHost : ¬HostKey key := host
    rw [if_neg host]
    by_cases list : key = "and" ∨ key = "or"
    · have combines := combinatorKey_iff.2 list
      rw [if_pos list, branchesHaveUpdate_iff]
      simp only [notHost, false_and, combines, true_and, false_or]
      constructor
      · rintro ⟨items, same, item, mem, update⟩
        exact ⟨item, ⟨items, same, mem⟩, update⟩
      · rintro ⟨item, ⟨items, same, mem⟩, update⟩
        exact ⟨items, same, item, mem, update⟩
    · have other : ¬∃ c : Combinator, key = c.key := fun combines =>
        list (combinatorKey_iff.1 combines)
      rw [if_neg list]
      simp [notHost, other]

/-- Elsewhere than under the names of combinations the scan looks for one query. -/
theorem fieldHasUpdate_of_not_list {key : String} {content : Json}
    (notList : ¬∃ c : Combinator, key = c.key) (update : fieldsHaveUpdate [(key, content)] = true) :
    HostKey key ∧ hasUpdate content = true := by
  obtain ⟨value, sub, found⟩ := fieldHasUpdate_iff.1 update
  rcases isSubQuery_singleton_iff.1 sub with ⟨host, rfl⟩ | ⟨list, -⟩
  · exact ⟨host, found⟩
  · exact absurd list notList

/-- The scan goes down to the sub-queries of an object. -/
theorem fieldsHaveUpdate_iff : ∀ {fields : Dictionary Json}, fieldsHaveUpdate fields = true ↔
    ∃ value : Json, value.IsSubQuery fields ∧ hasUpdate value = true
  | [] => by simp [fieldsHaveUpdate, IsSubQuery]
  | (key, content) :: rest => by
    have others : fieldsHaveUpdate rest = true ↔
        ∃ value : Json, value.IsSubQuery rest ∧ hasUpdate value = true := fieldsHaveUpdate_iff
    rw [Tree.fieldsHaveUpdate_cons, Bool.or_eq_true, fieldHasUpdate_iff, others, ← exists_or]
    refine exists_congr fun value => ?_
    have split : value.IsSubQuery ((key, content) :: rest) ↔ _ := isSubQuery_cons_iff
    rw [split, or_and_right]

theorem hasUpdate_obj_iff {fields : Dictionary Json} : hasUpdate (.obj fields) = true ↔
    IsUpdate (.obj fields) ∨ ∃ value : Json, value.IsSubQuery fields ∧ hasUpdate value = true := by
  rw [hasUpdate, Bool.or_eq_true, fieldsHaveUpdate_iff]
  rfl

theorem IsSubQuery.sizeOf_lt {value : Json} {fields : Dictionary Json}
    (sub : value.IsSubQuery fields) : sizeOf value < sizeOf (obj fields) := by
  rcases sub with ⟨key, -, mem⟩ | ⟨c, items, mem, inside⟩
  · exact sizeOf_lt_of_mem_fields mem
  · have outer := sizeOf_lt_of_mem_fields mem
    have inner := sizeOf_lt_of_mem_parts (show value ∈ (arr items).parts from inside)
    exact Nat.lt_trans inner outer

theorem exists_standsIn_of_hasUpdate : ∀ json : Json, hasUpdate json = true →
    ∃ part : Json, part.StandsIn json ∧ part.IsUpdate
  | .obj fields, update => by
    rcases hasUpdate_obj_iff.1 update with own | ⟨value, sub, inner⟩
    · exact ⟨.obj fields, .self, own⟩
    · obtain ⟨part, stands, isUpdate⟩ := exists_standsIn_of_hasUpdate value inner
      exact ⟨part, .inner sub stands, isUpdate⟩
termination_by json => sizeOf json
decreasing_by exact sub.sizeOf_lt

/-- **The scan finds the updates that stand as sub-queries**, and nothing else. -/
theorem hasUpdate_iff_standsIn {json : Json} :
    hasUpdate json = true ↔ ∃ part : Json, part.StandsIn json ∧ part.IsUpdate := by
  refine ⟨exists_standsIn_of_hasUpdate json, ?_⟩
  rintro ⟨part, stands, update⟩
  induction stands with
  | self =>
    cases part with
    | obj fields => exact hasUpdate_obj_iff.2 (.inl update)
    | _ => cases update
  | inner sub _ ih => exact hasUpdate_obj_iff.2 (.inr ⟨_, sub, ih⟩)

/-- What stands in a query as a sub-query stands in it. -/
theorem StandsIn.within {part json : Json} (stands : part.StandsIn json) : part.Within json := by
  induction stands with
  | self => exact .self
  | inner sub _ ih =>
    rcases sub with ⟨key, -, mem⟩ | ⟨c, items, mem, inside⟩
    · exact ih.of_mem_fields mem
    · exact (ih.of_mem_items inside).of_mem_fields mem

/-! ### The kind apart from the other fields -/

/-- The scan of an object whose kind is apart. -/
theorem hasUpdate_withKind (kind : Option String) {fields : Dictionary Json}
    (noType : ∀ field ∈ fields, field.1 ≠ "@type") :
    hasUpdate (.obj (withKind kind fields)) =
      (kind.any isUpdateKind || fieldsHaveUpdate fields) := by
  have scanned : fieldsHaveUpdate (withKind kind fields) = fieldsHaveUpdate fields := by
    cases kind with
    | none => rfl
    | some kind => rw [Tree.withKind_eq_insert noType, Tree.fieldsHaveUpdate_insert_type]
  rw [hasUpdate, isUpdateNode, Tree.kindOf_withKind kind noType, scanned]

end Json

end GraphQuery
