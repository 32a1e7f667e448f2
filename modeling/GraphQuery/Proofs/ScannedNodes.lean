import GraphQuery.Proofs.Rereading
import GraphQuery.Proofs.Shape
import GraphQuery.Proofs.UpdatePlaces

/-!
# The nodes that the scan sees

The scan for updates reads JSON, which is stored as nodes. In a node that it sees the scan sees one
query under the name of a host, and the queries of a list under the name of a combination. It sees
neither a list of queries under the name of a host nor a single one under that of a combination. In
a list under the name of a combination it looks for updates also when the list is plain.

Key definitions: `Branch.Scanned`, `Branch.Flagged`, `Store.Scans`.
Key theorems: `Tree.Legible.hasUpdate_iff_flagged`, `Tree.hasUpdate_ofFields`,
`Store.load_hasUpdate_iff`.
-/

namespace GraphQuery

namespace Branch

variable {α β : Type}

/-- A sub-query of a field that the scan sees. -/
def Scanned (child : α) : String × Branch α → Prop
  | (_, .value _) => False
  | (key, .query q) => HostKey key ∧ child = q
  | (key, .queries qs) => (∃ c : Combinator, key = c.key) ∧ child ∈ qs

theorem Scanned.mem_all {child : α} {field : String × Branch α} (scanned : Scanned child field) :
    child ∈ field.2.all := by
  obtain ⟨key, branch⟩ := field
  cases branch with
  | value json => exact scanned.elim
  | query q => exact List.mem_singleton.2 scanned.2
  | queries qs => exact scanned.2

theorem scanned_map_iff {f : α → β} {child : β} {key : String} {branch : Branch α} :
    Scanned child (key, branch.map f) ↔ ∃ q, Scanned q (key, branch) ∧ f q = child := by
  cases branch with
  | value json => simp [map, Scanned]
  | query q =>
    simp only [map, Scanned]
    constructor
    · rintro ⟨host, rfl⟩
      exact ⟨q, ⟨host, rfl⟩, rfl⟩
    · rintro ⟨_, ⟨host, rfl⟩, rfl⟩
      exact ⟨host, rfl⟩
  | queries qs =>
    simp only [map, Scanned, List.mem_map]
    constructor
    · rintro ⟨list, q, mem, rfl⟩
      exact ⟨q, ⟨list, mem⟩, rfl⟩
    · rintro ⟨q, ⟨list, mem⟩, rfl⟩
      exact ⟨list, q, mem, rfl⟩

/-- The queries that a combination is listed with are seen. -/
theorem exists_scanned_of_mem_children {c : Combinator} {fields : Dictionary (Branch α)} {child : α}
    (mem : child ∈ children c.key fields) : ∃ field ∈ fields, Scanned child field := by
  unfold children at mem
  cases found : Dictionary.find? c.key fields with
  | none =>
    rw [found] at mem
    cases mem
  | some branch =>
    rw [found] at mem
    cases branch with
    | queries qs => exact ⟨_, Dictionary.mem_of_find? found, ⟨c, rfl⟩, mem⟩
    | _ => cases mem

/-- A node that is an update, or that has one in a plain list under the name of a combination. -/
def Flagged (kind : Option String) (fields : Dictionary (Branch α)) : Prop :=
  kind.any isUpdateKind = true ∨ ∃ (c : Combinator) (items : List Json),
    (c.key, .value (.arr items)) ∈ fields ∧ ∃ item ∈ items, hasUpdate item = true

theorem mem_value_mapValues_iff {f : α → β} {key : String} {json : Json}
    {fields : Dictionary (Branch α)} :
    (key, .value json) ∈ Dictionary.mapValues (map f) fields ↔ (key, .value json) ∈ fields := by
  constructor
  · intro mem
    obtain ⟨⟨k, branch⟩, place, same⟩ := List.mem_map.1 mem
    cases branch with
    | value value =>
      cases same
      exact place
    | _ => cases same
  · intro mem
    exact List.mem_map_of_mem (f := fun field => (field.1, field.2.map f)) mem

theorem flagged_mapValues_iff {f : α → β} {kind : Option String} {fields : Dictionary (Branch α)} :
    Flagged kind (Dictionary.mapValues (map f) fields) ↔ Flagged kind fields := by
  simp only [Flagged, mem_value_mapValues_iff]

end Branch

namespace Tree

/-! ### The scan on a tree -/

/-- What the scan finds in one field. -/
theorem fieldHasUpdate_rawBranch_iff {key : String} {branch : Branch Tree} :
    fieldsHaveUpdate [(key, rawBranch branch)] = true ↔
      (∃ t, Branch.Scanned t (key, branch) ∧ t.hasUpdate = true) ∨
        ∃ json, branch = .value json ∧ fieldsHaveUpdate [(key, json)] = true := by
  cases branch with
  | value json => simp [rawBranch, Branch.Scanned]
  | query q =>
    have isObject : ∀ items, q.raw ≠ .arr items := by
      intro items same
      cases q
      cases same
    simp only [Json.fieldHasUpdate_iff, Json.isSubQuery_singleton_iff, rawBranch, Branch.Scanned,
      reduceCtorEq, false_and, exists_false, or_false]
    constructor
    · rintro ⟨_, ⟨host, rfl⟩ | ⟨-, items, same, -⟩, update⟩
      · exact ⟨q, ⟨host, rfl⟩, update⟩
      · exact absurd same (isObject items)
    · rintro ⟨t, ⟨host, rfl⟩, update⟩
      exact ⟨t.raw, .inl ⟨host, rfl⟩, update⟩
  | queries qs =>
    simp only [Json.fieldHasUpdate_iff, Json.isSubQuery_singleton_iff, rawBranch, Branch.Scanned,
      reduceCtorEq, false_and, exists_false, or_false, rawAll_eq_map]
    constructor
    · rintro ⟨_, ⟨-, rfl⟩ | ⟨list, items, same, mem⟩, update⟩
      · cases update
      · cases same
        obtain ⟨t, listed, rfl⟩ := List.mem_map.1 mem
        exact ⟨t, ⟨list, listed⟩, update⟩
    · rintro ⟨t, ⟨list, mem⟩, update⟩
      exact ⟨t.raw, .inr ⟨list, _, rfl, List.mem_map_of_mem mem⟩, update⟩

theorem fieldsHaveUpdate_eq_any : ∀ fields : Dictionary Json,
    fieldsHaveUpdate fields = fields.any fun field => fieldsHaveUpdate [field]
  | [] => rfl
  | field :: rest => by
    rw [fieldsHaveUpdate_cons, fieldsHaveUpdate_eq_any rest, List.any_cons]

/-- The scan of a tree, field by field. -/
theorem hasUpdate_node_iff {kind : Option String} {fields : Dictionary (Branch Tree)}
    (noType : ∀ field ∈ fields, field.1 ≠ "@type") :
    (node kind fields).hasUpdate = true ↔ kind.any isUpdateKind = true ∨
      ∃ field ∈ fields, fieldsHaveUpdate [(field.1, rawBranch field.2)] = true := by
  have raw : (node kind fields).hasUpdate =
      (kind.any isUpdateKind || fieldsHaveUpdate (rawFields fields)) :=
    Json.hasUpdate_withKind kind (rawFields_ne_type noType)
  rw [raw, fieldsHaveUpdate_eq_any, rawFields_eq_mapValues, Bool.or_eq_true, Dictionary.mapValues,
    List.any_map, List.any_eq_true]
  rfl

/-- In a field that is read as plain the scan sees updates only in a list under the name of a
combination. -/
theorem Fits.fieldHasUpdate_iff {kind : Option String} {key : String} {json : Json}
    (fits : Fits kind (key, .value json)) : fieldsHaveUpdate [(key, json)] = true ↔
      ∃ (c : Combinator) (items : List Json), key = c.key ∧ json = .arr items ∧
        ∃ item ∈ items, GraphQuery.hasUpdate item = true := by
  rw [Json.fieldHasUpdate_iff]
  constructor
  · rintro ⟨value, sub, update⟩
    rcases Json.isSubQuery_singleton_iff.1 sub with ⟨host, rfl⟩ | ⟨⟨c, same⟩, items, list, mem⟩
    · cases value with
      | obj fields =>
        have read : ofField kind key (.obj fields) = .value (.obj fields) := fits.2
        rw [ofField_obj (holdsQueries_of_hostKey host kind)] at read
        cases read
      | _ => cases update
    · exact ⟨c, items, same, list, value, mem, update⟩
  · rintro ⟨c, items, same, list, item, mem, update⟩
    exact ⟨item, Json.isSubQuery_singleton_iff.2 (.inr ⟨⟨c, same⟩, items, list, mem⟩), update⟩

/-- **What the scan sees of a tree that is read back**: the update that the root is, those in its
plain lists, and those in the sub-queries that are seen. -/
theorem Legible.hasUpdate_iff_flagged {t : Tree} (legible : t.Legible) :
    t.hasUpdate = true ↔ Branch.Flagged t.kind t.fields ∨
      ∃ field ∈ t.fields, ∃ q, Branch.Scanned q field ∧ q.hasUpdate = true := by
  obtain ⟨kind, fields⟩ := t
  have fits : ∀ field ∈ fields, Fits kind field := legible.fits
  rw [hasUpdate_node_iff fun field mem => (fits field mem).ne_type]
  show _ ↔ Branch.Flagged kind fields ∨ ∃ field ∈ fields, _
  rw [Branch.Flagged, or_assoc]
  refine or_congr_right ⟨?_, ?_⟩
  · rintro ⟨⟨key, branch⟩, mem, update⟩
    rcases fieldHasUpdate_rawBranch_iff.1 update with ⟨q, seen, update⟩ | ⟨json, rfl, update⟩
    · exact .inr ⟨_, mem, q, seen, update⟩
    · obtain ⟨c, items, rfl, rfl, some⟩ := (fits _ mem).fieldHasUpdate_iff.1 update
      exact .inl ⟨c, items, mem, some⟩
  · rintro (⟨c, items, mem, some⟩ | ⟨⟨key, branch⟩, mem, q, seen, update⟩)
    · refine ⟨_, mem, fieldHasUpdate_rawBranch_iff.2 (.inr ⟨_, rfl, ?_⟩)⟩
      exact (fits _ mem).fieldHasUpdate_iff.2 ⟨c, items, rfl, rfl, some⟩
    · exact ⟨_, mem, fieldHasUpdate_rawBranch_iff.2 (.inl ⟨q, seen, update⟩)⟩

/-! ### The scan of what is read -/

theorem ofFieldList_ne_type (kind : Option String) (fields : Dictionary Json) :
    ∀ field ∈ ofFieldList kind fields, field.1 ≠ "@type" :=
  fun field mem => (legible_ofFieldList kind fields field mem).1.ne_type

/-- The scan of the tree that an object is, from that of its fields. -/
theorem hasUpdate_ofFields_of {fields : Dictionary Json}
    (same : fieldsHaveUpdate (rawFields (ofFieldList (Json.kindOf fields) fields)) =
      fieldsHaveUpdate fields) :
    (ofFields fields).hasUpdate = GraphQuery.hasUpdate (.obj fields) := by
  have noType := rawFields_ne_type (ofFieldList_ne_type (Json.kindOf fields) fields)
  show GraphQuery.hasUpdate (.obj (withKind _ _)) = _
  rw [Json.hasUpdate_withKind _ noType, same]
  rfl

/-- The scan tells two values under a name apart only as queries and as lists of queries. -/
theorem fieldHasUpdate_congr (key : String) {json json₁ : Json}
    (one : GraphQuery.hasUpdate json = GraphQuery.hasUpdate json₁)
    (several : branchesHaveUpdate json = branchesHaveUpdate json₁) :
    fieldsHaveUpdate [(key, json)] = fieldsHaveUpdate [(key, json₁)] := by
  simp only [fieldsHaveUpdate, one, several]

mutual

theorem fieldHasUpdate_ofField (kind : Option String) (key : String) : ∀ json : Json,
    fieldsHaveUpdate [(key, rawBranch (ofField kind key json))] = fieldsHaveUpdate [(key, json)]
  | .obj fields => by
    by_cases holds : holdsQueries kind key = true
    · have same := hasUpdate_ofFields_of (fieldsHaveUpdate_ofFieldList (Json.kindOf fields) fields)
      rw [ofField_obj holds]
      exact fieldHasUpdate_congr key same rfl
    · rw [ofField_of_not_holds (by simpa using holds)]
      rfl
  | .arr items => by
    by_cases holds : (holdsQueries kind key && items.all Json.isObject) = true
    · have ⟨holds, objects⟩ := Bool.and_eq_true_iff.1 holds
      rw [ofField_arr holds objects]
      exact fieldHasUpdate_congr key rfl (anyHasUpdate_ofItems items)
    · rw [ofField, if_neg holds]
      rfl
  | .null | .bool _ | .number _ | .str _ => rfl

theorem fieldsHaveUpdate_ofFieldList (kind : Option String) : ∀ fields : List (String × Json),
    fieldsHaveUpdate (rawFields (ofFieldList kind fields)) = fieldsHaveUpdate fields
  | [] => rfl
  | (key, json) :: rest => by
    have others := fieldsHaveUpdate_ofFieldList kind rest
    rw [ofFieldList, fieldsHaveUpdate_cons]
    by_cases same : key = "@type"
    · have unseen : fieldsHaveUpdate [("@type", json)] = false := rfl
      rw [if_pos same, others, same, unseen, Bool.false_or]
    · rw [if_neg same, rawFields, fieldsHaveUpdate_cons, others,
        fieldHasUpdate_ofField kind key json]

theorem anyHasUpdate_ofItems : ∀ items : List Json,
    anyHasUpdate (rawAll (ofItems items)) = anyHasUpdate items
  | [] => rfl
  | .obj fields :: rest => by
    have same := hasUpdate_ofFields_of (fieldsHaveUpdate_ofFieldList (Json.kindOf fields) fields)
    have others := anyHasUpdate_ofItems rest
    show (GraphQuery.hasUpdate (ofFields fields).raw || anyHasUpdate (rawAll (ofItems rest))) = _
    rw [others]
    exact congrArg (· || anyHasUpdate rest) same
  | .null :: rest | .bool _ :: rest | .number _ :: rest | .str _ :: rest | .arr _ :: rest =>
    anyHasUpdate_ofItems rest

end

/-- **A query has an update when the object that it is has one.** -/
theorem hasUpdate_ofFields (fields : Dictionary Json) :
    (ofFields fields).hasUpdate = GraphQuery.hasUpdate (.obj fields) :=
  hasUpdate_ofFields_of (fieldsHaveUpdate_ofFieldList (Json.kindOf fields) fields)

end Tree

namespace Store

/-! ### The scan of a store -/

variable {s : Store}

/-- A node refers to a query that the scan sees. -/
def Scans (s : Store) (parent child : Handle) : Prop :=
  ∃ field ∈ (s.node parent).fields, Branch.Scanned child field

/-- A node that the scan stops at. -/
def Flags (s : Store) (h : Handle) : Prop := Branch.Flagged (s.node h).kind (s.node h).fields

theorem scans_iff_of_holds {p : Plot} (held : s.Holds p.cells) {child : Handle} :
    s.Scans p.handle child ↔
      ∃ field ∈ p.fields, ∃ q, Branch.Scanned q field ∧ q.handle = child := by
  have fields : (s.node p.handle).fields =
      Dictionary.mapValues (Branch.map Plot.handle) p.fields := by
    rw [held.stored_eq]
    rfl
  rw [Scans, fields]
  constructor
  · rintro ⟨_, mem, seen⟩
    obtain ⟨field, place, rfl⟩ := List.mem_map.1 mem
    exact ⟨field, place, Branch.scanned_map_iff.1 seen⟩
  · rintro ⟨field, place, seen⟩
    exact ⟨_, List.mem_map_of_mem place, Branch.scanned_map_iff.2 seen⟩

theorem flags_iff_of_holds {p : Plot} (held : s.Holds p.cells) :
    s.Flags p.handle ↔ Branch.Flagged p.tree.kind p.tree.fields := by
  rw [Flags, held.stored_eq, p.tree_kind, p.tree_fields, Branch.flagged_mapValues_iff]
  exact Branch.flagged_mapValues_iff

/-- The scan of a tree follows the handles that it is stored under. -/
theorem hasUpdate_iff_of_holds : ∀ p : Plot, s.Holds p.cells → p.tree.Legible →
    (p.tree.hasUpdate = true ↔ ∃ h, Relation.ReflTransGen s.Scans p.handle h ∧ s.Flags h) := by
  apply Plot.induction
  intro p ih held legible
  have part : ∀ field ∈ p.fields, ∀ q, Branch.Scanned q field →
      (q.tree.hasUpdate = true ↔
        ∃ h, Relation.ReflTransGen s.Scans q.handle h ∧ s.Flags h) := by
    rintro ⟨key, branch⟩ place q seen
    have inside : q ∈ branch.all := seen.mem_all
    refine ih _ place q inside (held.mono (Plot.cells_le_of_mem_parts ?_)) ?_
    · exact List.mem_flatMap.2 ⟨_, place, inside⟩
    · have listed : (key, branch.map Plot.tree) ∈ p.tree.fields := by
        rw [p.tree_fields]
        exact List.mem_map_of_mem place
      refine legible.parts _ listed _ ?_
      rw [Branch.all_map]
      exact List.mem_map_of_mem inside
  rw [legible.hasUpdate_iff_flagged, ← flags_iff_of_holds held, p.tree_fields]
  constructor
  · rintro (flags | ⟨_, mem, t, seen, update⟩)
    · exact ⟨p.handle, .refl, flags⟩
    · obtain ⟨field, place, rfl⟩ := List.mem_map.1 mem
      obtain ⟨q, inside, rfl⟩ := Branch.scanned_map_iff.1 seen
      obtain ⟨h, path, flags⟩ := (part field place q inside).1 update
      have scans := (scans_iff_of_holds held).2 ⟨field, place, q, inside, rfl⟩
      exact ⟨h, path.head scans, flags⟩
  · rintro ⟨h, path, flags⟩
    rcases path.cases_head with rfl | ⟨child, scans, path⟩
    · exact .inl flags
    · obtain ⟨field, place, q, seen, rfl⟩ := (scans_iff_of_holds held).1 scans
      exact .inr ⟨_, List.mem_map_of_mem place, q.tree,
        Branch.scanned_map_iff.2 ⟨q, seen, rfl⟩, (part field place q seen).2 ⟨h, path, flags⟩⟩

/-- **The scan of an object finds what it sees of the nodes that the object is read as.** If it sees
all of them, it finds every update among them. -/
theorem load_hasUpdate_iff (s : Store) (fields : Dictionary Json) :
    (hasUpdate (.obj fields) = true ↔ ∃ h,
      Relation.ReflTransGen (s.load fields).1.Scans (s.load fields).2 h ∧
        (s.load fields).1.Flags h) ∧
    ((∀ parent child, (s.load fields).1.Reaches (s.load fields).2 parent →
        (s.load fields).1.Refers parent child → (s.load fields).1.Scans parent child) →
      ∀ h, (s.load fields).1.Reaches (s.load fields).2 h →
        ((s.load fields).1.node h).kind.any isUpdateKind = true →
          hasUpdate (.obj fields) = true) := by
  have found : hasUpdate (.obj fields) = true ↔ ∃ h,
      Relation.ReflTransGen (s.load fields).1.Scans (s.load fields).2 h ∧
        (s.load fields).1.Flags h := by
    obtain ⟨p, tree, handle, grown⟩ := s.plant_grown (.ofFields fields)
    have legible : p.tree.Legible := tree ▸ Tree.legible_ofFields fields
    rw [← Tree.hasUpdate_ofFields, ← tree, load, ← handle]
    exact hasUpdate_iff_of_holds p grown.held legible
  refine ⟨found, fun seen h reaches update => found.2 ⟨h, ?_, .inl update⟩⟩
  clear update
  induction reaches with
  | refl => exact .refl
  | tail before refers ih => exact ih.tail (seen _ _ before refers)

/-- An update in a conjunction that a negation is about. -/
theorem load_hasUpdate_nested : ∃ fields,
    fields = [("@type", .str "Not"), ("query", .obj [("@type", .str "And"),
      ("and", .arr [.obj [("@type", .str "True")], .obj [("@type", .str "AddTriple")]])])] ∧
    (∀ parent child, (empty.load fields).1.Reaches (empty.load fields).2 parent →
      (empty.load fields).1.Refers parent child → (empty.load fields).1.Scans parent child) ∧
    (empty.load fields).1.Reaches (empty.load fields).2 ⟨1⟩ ∧
    ((empty.load fields).1.node ⟨1⟩).kind = some "AddTriple" ∧
    hasUpdate (.obj fields) = true := by
  refine ⟨_, rfl, ?seen, ?reaches, rfl, (load_hasUpdate_iff empty _).2 ?seen ⟨1⟩ ?reaches rfl⟩
  case seen =>
    rintro ⟨parent⟩ child - refers
    rw [refers_iff] at refers
    rcases parent with _ | _ | _ | _ | parent
    · cases refers
    · cases refers
    · exact ⟨("and", .queries [⟨0⟩, ⟨1⟩]), List.mem_singleton_self _, ⟨.and, rfl⟩, refers⟩
    · have same : child = ⟨2⟩ := List.mem_singleton.1 refers
      exact ⟨("query", .query ⟨2⟩), List.mem_singleton_self _, .inl rfl, same⟩
    · cases refers
  case reaches =>
    have outer : (⟨2⟩ : Handle) ∈ [(⟨2⟩ : Handle)] := List.mem_singleton_self _
    have inner : (⟨1⟩ : Handle) ∈ [(⟨0⟩ : Handle), ⟨1⟩] := by decide
    exact .tail (.single (refers_iff.2 outer)) (refers_iff.2 inner)

/-- The scan does not see a list of queries that a negation is about. -/
theorem load_hasUpdate_listed : ∃ fields h,
    fields = [("@type", .str "Not"), ("query", .arr [.obj [("@type", .str "AddTriple")]])] ∧
    (empty.load fields).1.Reaches (empty.load fields).2 h ∧
    ((empty.load fields).1.node h).kind.any isUpdateKind = true ∧
    hasUpdate (.obj fields) = false := by
  refine ⟨_, ⟨0⟩, rfl, .single (refers_iff.2 ?_), rfl, rfl⟩
  exact List.mem_singleton_self _

end Store

end GraphQuery
