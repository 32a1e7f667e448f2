import GraphQuery.Proofs.ScannedNodes

/-!
# Updates in what is sent

The wire form of a query leaves some of it out and moves some: the only query of a combination takes
the place of the combination. The scan sees in the wire form what it has seen in the query, so it
finds an update there only if it finds one in the query. The other way round updates can be lost
with the queries around them, but not from a query that is sent as a whole.

Key definitions: `Tree.Sent`, `Tree.Whole`.
Key theorems: `Tree.Legible.hasUpdate_of_wire?`, `Builder.hasUpdate_of_wire`, `Tree.Whole.sent`.
-/

namespace GraphQuery

namespace Tree

/-- A combination has the updates of its queries. -/
theorem hasUpdate_combine {c : Combinator} {items : List Json} {v : Json}
    (combined : combine c items = some v) :
    GraphQuery.hasUpdate v = items.any GraphQuery.hasUpdate := by
  match items with
  | [] => cases combined
  | [item] =>
    cases combined
    exact (Bool.or_false _).symm
  | first :: second :: rest =>
    cases combined
    rw [← anyHasUpdate_eq_any]
    cases c with
    | and => exact Bool.or_false _
    | or => exact Bool.or_false _

/-- **The scan of the wire form finds nothing new.** -/
theorem Legible.hasUpdate_of_wire? {t : Tree} (h : t.Legible) :
    ∀ v, t.wire? = some v → GraphQuery.hasUpdate v = true → t.hasUpdate = true := by
  induction h with
  | @node kind fields fits parts ih =>
    intro v written update
    have legible : (Tree.node kind fields).Legible := .node fits parts
    have seen : ∀ field ∈ fields, ∀ q : Tree, Branch.Scanned q field → ∀ v, q.wire? = some v →
        GraphQuery.hasUpdate v = true → (Tree.node kind fields).hasUpdate = true := by
      intro field mem q scanned v sent update
      have inner := ih field mem q scanned.mem_all v sent update
      exact legible.hasUpdate_iff_flagged.2 (.inr ⟨field, mem, q, scanned, inner⟩)
    rw [wire?] at written
    by_cases combination : ∃ c : Combinator, kind = some c.kind
    · obtain ⟨c, rfl⟩ := combination
      rw [settle_combination, children_wireFields, List.filterMap_map] at written
      rw [hasUpdate_combine written, List.any_eq_true] at update
      obtain ⟨item, listed, update⟩ := update
      obtain ⟨q, child, sent⟩ := List.mem_filterMap.1 listed
      obtain ⟨field, mem, scanned⟩ := Branch.exists_scanned_of_mem_children child
      exact seen field mem q scanned item sent update
    · have other : ∀ c : Combinator, kind ≠ some c.kind := fun c same => combination ⟨c, same⟩
      obtain ⟨-, -, rfl⟩ := (settle_eq_some_iff other).1 written
      rw [Json.hasUpdate_withKind kind (settled_ne_type fits), fieldsHaveUpdate_eq_any,
        Bool.or_eq_true, List.any_eq_true] at update
      rcases update with own | ⟨⟨key, json⟩, mem, update⟩
      · exact legible.hasUpdate_iff_flagged.2 (.inl (.inl own))
      have notList : holdsQueries kind key = true → ¬∃ c : Combinator, key = c.key := by
        rintro holds ⟨c, rfl⟩
        exact Json.not_hostKey_combinator c ((holdsQueries_iff other _).1 holds)
      obtain ⟨branch, place, rfl | ⟨q, rfl, sent⟩ | ⟨qs, rfl, rfl⟩⟩ := of_mem_settled mem
      · obtain ⟨c, items, rfl, rfl, some⟩ := (fits _ place).fieldHasUpdate_iff.1 update
        exact legible.hasUpdate_iff_flagged.2 (.inl (.inr ⟨c, items, place, some⟩))
      · obtain ⟨host, update⟩ := Json.fieldHasUpdate_of_not_list (notList (fits _ place)) update
        exact seen _ place q ⟨host, rfl⟩ json sent update
      · obtain ⟨-, update⟩ := Json.fieldHasUpdate_of_not_list (notList (fits _ place)) update
        cases update

theorem Legible.hasUpdate_of_hasUpdate_wire {t : Tree} (h : t.Legible)
    (update : GraphQuery.hasUpdate t.wire = true) : t.hasUpdate = true := by
  unfold wire at update
  cases sent : t.wire? with
  | none =>
    rw [sent] at update
    cases update
  | some v =>
    rw [sent] at update
    exact h.hasUpdate_of_wire? v sent update

/-! ### Queries that are sent as a whole -/

/-- A query that is sent as a whole: nothing in it is empty, and a combination has nothing but its
queries. -/
inductive Whole : Tree → Prop where
  | combination (c : Combinator) {ts : List Tree} : ts ≠ [] → (∀ t ∈ ts, Whole t) →
    Whole (.node (some c.kind) [(c.key, .queries ts)])
  | node {kind : Option String} {fields : Dictionary (Branch Tree)} :
    (∀ c : Combinator, kind ≠ some c.kind) → (kind = none → fields ≠ []) →
    (∀ field ∈ fields, ∀ t ∈ field.2.all, Whole t) → Whole (.node kind fields)

theorem exists_combine (c : Combinator) {items : List Json} (ne : items ≠ []) :
    ∃ v, combine c items = some v ∧ ∀ item ∈ items, item.Within v := by
  match items with
  | [item] =>
    refine ⟨item, rfl, fun part mem => ?_⟩
    rw [List.mem_singleton.1 mem]
    exact .self
  | first :: second :: rest =>
    refine ⟨_, rfl, fun part mem => ?_⟩
    have list : part.Within (.arr (first :: second :: rest)) := Json.Within.self.of_mem_items mem
    exact list.of_mem_fields (List.mem_cons_of_mem _ (List.mem_singleton_self _))

/-- A query that is sent, and with an update if it has one. -/
def Sent (t : Tree) : Prop := ∃ v, t.wire? = some v ∧
  (t.hasUpdate = true → ∃ part : Json, part.Within v ∧ part.IsUpdate)

/-- A combination is sent with its queries. -/
theorem sent_combination (c : Combinator) {ts : List Tree} (ne : ts ≠ [])
    (legible : (node (some c.kind) [(c.key, .queries ts)]).Legible) (each : ∀ t ∈ ts, t.Sent) :
    (node (some c.kind) [(c.key, .queries ts)]).Sent := by
  have some : ts.filterMap wire? ≠ [] := by
    obtain ⟨t, mem⟩ := List.exists_mem_of_ne_nil ts ne
    obtain ⟨v, written, -⟩ := each t mem
    exact List.ne_nil_of_mem (List.mem_filterMap.2 ⟨t, mem, written⟩)
  obtain ⟨v, combined, inside⟩ := exists_combine c some
  refine ⟨v, ?_, fun update => ?_⟩
  · have listed : Branch.children c.key [(c.key, .queries ts)] = ts := children_combination c ts
    rw [wire?, settle_combination, children_wireFields, listed, List.filterMap_map]
    exact combined
  · rcases legible.hasUpdate_iff_flagged.1 update with (own | ⟨d, items, mem, -⟩) |
      ⟨field, mem, q, scanned, update⟩
    · have none : isUpdateKind c.kind = true := own
      rw [isUpdateKind_combinator] at none
      cases none
    · cases (Prod.ext_iff.1 (List.mem_singleton.1 mem)).2
    · obtain rfl := List.mem_singleton.1 mem
      have mem : q ∈ ts := scanned.mem_all
      obtain ⟨v₁, written, found⟩ := each q mem
      obtain ⟨part, stands, isUpdate⟩ := found update
      exact ⟨part, stands.trans (inside v₁ (List.mem_filterMap.2 ⟨q, mem, written⟩)), isUpdate⟩

/-- A field whose queries are sent is sent with them. -/
theorem exists_mem_settled {fields : Dictionary (Branch Tree)} {field : String × Branch Tree}
    (mem : field ∈ fields) (each : ∀ q ∈ field.2.all, q.Sent) : ∃ json,
      (field.1, json) ∈ (wireFields fields).filterMap settleField ∧
      (∀ plain, field.2 = .value plain → json = plain) ∧
      ∀ q ∈ field.2.all, ∀ v, q.wire? = some v → v.Within json := by
  obtain ⟨key, branch⟩ := field
  have settled : ∀ {json}, settleField (key, wireBranch branch) = some (key, json) →
      (key, json) ∈ (wireFields fields).filterMap settleField := by
    intro json same
    rw [wireFields_eq_mapValues]
    exact List.mem_filterMap.2 ⟨_, List.mem_map_of_mem mem, same⟩
  cases branch with
  | value json =>
    exact ⟨json, settled rfl, fun plain same => Branch.value.inj same, List.forall_mem_nil _⟩
  | query q =>
    obtain ⟨v, written, -⟩ := each q (List.mem_singleton_self q)
    refine ⟨v, settled ?_, fun _ same => (by cases same), fun t mem json same => ?_⟩
    · rw [wireBranch, written]
      rfl
    · obtain rfl := List.mem_singleton.1 mem
      obtain rfl := Option.some.inj (written.symm.trans same)
      exact .self
  | queries qs =>
    refine ⟨.arr (qs.filterMap wire?), settled ?_, fun _ same => (by cases same),
      fun t mem json same => ?_⟩
    · rw [wireBranch, wireAll_eq_map, settleField, List.filterMap_map]
      rfl
    · have listed : json ∈ qs.filterMap wire? := List.mem_filterMap.2 ⟨t, mem, same⟩
      exact Json.Within.self.of_mem_items listed

/-- A node whose queries are sent is sent with all its fields. -/
theorem wire?_of_sent {kind : Option String} {fields : Dictionary (Branch Tree)}
    (other : ∀ c : Combinator, kind ≠ some c.kind) (filled : kind = none → fields ≠ [])
    (fits : ∀ field ∈ fields, Fits kind field)
    (each : ∀ field ∈ fields, ∀ q ∈ field.2.all, q.Sent) :
    (node kind fields).wire? =
      some (.obj (withKind kind ((wireFields fields).filterMap settleField))) := by
  have full : isBare kind (wireFields fields) = false := by
    refine isBare_eq_false kind ?_
    rw [wireFields_eq_mapValues]
    refine List.forall_mem_map.2 fun field mem same => ?_
    obtain ⟨key, branch⟩ := field
    cases branch with
    | query q =>
      obtain ⟨v, written, -⟩ := each _ mem q (List.mem_singleton_self q)
      have lost : q.wire? = none := Branch.query.inj same
      rw [written] at lost
      cases lost
    | _ => cases same
  have ne : withKind kind ((wireFields fields).filterMap settleField) ≠ [] := by
    cases kind with
    | none =>
      obtain ⟨field, mem⟩ := List.exists_mem_of_ne_nil fields (filled rfl)
      obtain ⟨json, listed, -⟩ := exists_mem_settled mem (each field mem)
      exact List.ne_nil_of_mem listed
    | some kind =>
      rw [withKind_eq_insert (settled_ne_type fits)]
      exact List.ne_nil_of_mem (Dictionary.mem_of_find? (Dictionary.find?_insert_self _ _ _))
  exact (settle_eq_some_iff other).2 ⟨full, ne, rfl⟩

theorem sent_node {kind : Option String} {fields : Dictionary (Branch Tree)}
    (other : ∀ c : Combinator, kind ≠ some c.kind) (filled : kind = none → fields ≠ [])
    (legible : (node kind fields).Legible) (each : ∀ field ∈ fields, ∀ q ∈ field.2.all, q.Sent) :
    (node kind fields).Sent := by
  have fits : ∀ field ∈ fields, Fits kind field := legible.fits
  have noType := settled_ne_type fits
  refine ⟨_, wire?_of_sent other filled fits each, fun update => ?_⟩
  have inner : ∀ {part json : Json} {key : String}, part.Within json →
      (key, json) ∈ (wireFields fields).filterMap settleField →
      part.Within (.obj (withKind kind ((wireFields fields).filterMap settleField))) :=
    fun within mem => within.of_mem_fields (mem_withKind_of_mem kind noType mem)
  rcases legible.hasUpdate_iff_flagged.1 update with (own | ⟨c, items, mem, item, inside, found⟩) |
    ⟨field, mem, q, scanned, update⟩
  · refine ⟨_, .self, ?_⟩
    show (Json.kindOf (withKind kind _)).any isUpdateKind = true
    rw [kindOf_withKind kind noType]
    exact own
  · obtain ⟨part, stands, isUpdate⟩ := Json.hasUpdate_iff_standsIn.1 found
    obtain ⟨json, listed, plain, -⟩ := exists_mem_settled mem (each _ mem)
    obtain rfl := plain _ rfl
    exact ⟨part, inner (stands.within.of_mem_items inside) listed, isUpdate⟩
  · obtain ⟨v, written, found⟩ := each field mem q scanned.mem_all
    obtain ⟨part, stands, isUpdate⟩ := found update
    obtain ⟨json, listed, -, within⟩ := exists_mem_settled mem (each field mem)
    exact ⟨part, inner (stands.trans (within q scanned.mem_all v written)) listed, isUpdate⟩

/-- **A query that is sent as a whole is sent with its updates.** -/
theorem Whole.sent {t : Tree} (whole : t.Whole) : t.Legible → t.Sent := by
  induction whole with
  | @combination c ts ne _ ih =>
    intro legible
    have parts : ∀ t ∈ ts, t.Legible := legible.parts _ (List.mem_singleton_self _)
    exact sent_combination c ne legible fun t mem => ih t mem (parts t mem)
  | node other filled _ ih =>
    intro legible
    exact sent_node other filled legible fun field mem q inside =>
      ih field mem q inside (legible.parts field mem q inside)

end Tree

namespace Builder

/-- **What is sent has an update only if the query has one.** -/
theorem hasUpdate_of_wire {b : Builder} (reachable : Reachable Initial b)
    (update : GraphQuery.hasUpdate b.wire = true) : b.hasUpdate = true :=
  (legible_of_reachable reachable).tree.hasUpdate_of_hasUpdate_wire update

/-- A deletion that is the only query of a conjunction, in a negation that is the only query of a
disjunction. -/
theorem hasUpdate_of_wire_collapsed : ∃ b, Reachable Initial b ∧
    b.raw = .obj [("@type", .str "Or"), ("or", .arr [.obj [("@type", .str "Not"),
      ("query", .obj [("@type", .str "And"),
        ("and", .arr [.obj [("@type", .str "DeleteTriple")]])])]])] ∧
    b.wire = .obj [("@type", .str "Not"), ("query", .obj [("@type", .str "DeleteTriple")])] ∧
    GraphQuery.hasUpdate b.wire = true ∧ b.hasUpdate = true := by
  obtain ⟨b, made, rawForm, wireForm⟩ : ∃ b,
      ofJson (.obj [("@type", .str "Or"), ("or", .arr [.obj [("@type", .str "Not"),
        ("query", .obj [("@type", .str "And"),
          ("and", .arr [.obj [("@type", .str "DeleteTriple")]])])]])]) = .ok b ∧
        b.raw = .obj [("@type", .str "Or"), ("or", .arr [.obj [("@type", .str "Not"),
          ("query", .obj [("@type", .str "And"),
            ("and", .arr [.obj [("@type", .str "DeleteTriple")]])])]])] ∧
        b.wire = .obj [("@type", .str "Not"), ("query", .obj [("@type", .str "DeleteTriple")])] :=
    ⟨_, rfl, rfl, rfl⟩
  have ordered : (Json.obj [("@type", .str "Or"), ("or", .arr [.obj [("@type", .str "Not"),
      ("query", .obj [("@type", .str "And"),
        ("and", .arr [.obj [("@type", .str "DeleteTriple")]])])]])]).Ordered := by decide
  have reachable : Reachable Initial b := .start (.ofJson ordered made)
  have update : GraphQuery.hasUpdate b.wire = true := by
    rw [wireForm]
    rfl
  exact ⟨b, reachable, rawForm, wireForm, update, hasUpdate_of_wire reachable update⟩

end Builder

end GraphQuery
