import GraphQuery.Proofs.BuiltTree
import GraphQuery.Proofs.Layout
import GraphQuery.Proofs.Legible

/-!
# The normal form of a query

The wire form of a query that was read is normal: nothing in it is empty, and every combination in
it combines at least two queries. A normal object is its own wire form, so writing and reading again
changes nothing.

What is written lists the kind of a node and then its other fields, which is how the proofs take
objects apart. An object in order can be taken apart like that as well.

Key definitions: `Json.Normal`, `Json.Settled`, `Json.Stable`.
Key theorems: `Tree.Legible.settled_of_wire?`, `Json.Settled.normal`, `Json.Settled.stable`,
`Json.Normal.settled`, `Store.load_normal`.
-/

namespace GraphQuery

namespace Json

/-- A query as it is sent. An object says something, and its `@type` is a text. A combination has
nothing but at least two queries; in any other object the queries that it is about are normal. -/
inductive Normal : Json → Prop where
  | combination (c : Combinator) {items : List Json} : 2 ≤ items.length →
    (∀ item ∈ items, Normal item) →
    Normal (.obj [("@type", .str c.kind), (c.key, .arr items)])
  | node {fields : Dictionary Json} : fields ≠ [] →
    (∀ json, ("@type", json) ∈ fields →
      ∃ kind, json = .str kind ∧ ∀ c : Combinator, kind ≠ c.kind) →
    (∀ key inner, HostKey key → (key, .obj inner) ∈ fields → Normal (.obj inner)) →
    (∀ key items, HostKey key → (key, .arr items) ∈ fields → items.all isObject = true →
      ∀ item ∈ items, Normal item) →
    Normal (.obj fields)

/-- A query as it is written, with the kind of a node apart from its other fields. -/
inductive Settled : Json → Prop where
  | combination (c : Combinator) {items : List Json} : 2 ≤ items.length →
    (∀ item ∈ items, Settled item) →
    Settled (.obj [("@type", .str c.kind), (c.key, .arr items)])
  | node {kind : Option String} {fields : Dictionary Json} :
    (∀ c : Combinator, kind ≠ some c.kind) → withKind kind fields ≠ [] →
    (∀ field ∈ fields, field.1 ≠ "@type") →
    (∀ key inner, HostKey key → (key, .obj inner) ∈ fields → Settled (.obj inner)) →
    (∀ key items, HostKey key → (key, .arr items) ∈ fields → items.all isObject = true →
      ∀ item ∈ items, Settled item) →
    Settled (.obj (withKind kind fields))

/-- An object that is its own wire form. -/
def Stable : Json → Prop
  | .obj fields => (Tree.ofFields fields).wire? = some (.obj fields)
  | _ => False

end Json

namespace Tree

/-- A field of what is written is the kind or another field. -/
theorem mem_withKind {kind : Option String} {fields : Dictionary Json}
    (noType : ∀ field ∈ fields, field.1 ≠ "@type") {field : String × Json}
    (mem : field ∈ withKind kind fields) :
    (∃ text, kind = some text ∧ field = ("@type", .str text)) ∨ field ∈ fields := by
  cases kind with
  | none => exact .inr mem
  | some text =>
    rw [withKind_eq_insert noType] at mem
    exact (Dictionary.mem_insert mem).imp_left fun same => ⟨text, rfl, same⟩

theorem mem_withKind_of_mem (kind : Option String) {fields : Dictionary Json}
    (noType : ∀ field ∈ fields, field.1 ≠ "@type") {field : String × Json} (mem : field ∈ fields) :
    field ∈ withKind kind fields := by
  cases kind with
  | none => exact mem
  | some kind =>
    rw [withKind_eq_insert noType]
    exact Dictionary.mem_insert_of_mem_of_ne mem (noType field mem)

/-- Apart from combinations, sub-queries stand where a node has the queries it is about. -/
theorem holdsQueries_iff {kind : Option String} (other : ∀ c : Combinator, kind ≠ some c.kind)
    (key : String) : holdsQueries kind key = true ↔ HostKey key := by
  have notAnd : kind ≠ some "And" := other .and
  have notOr : kind ≠ some "Or" := other .or
  simp [holdsQueries, HostKey, notAnd, notOr]

/-- The wire form of a combination from those of its queries. -/
theorem settle_combination (c : Combinator) (fields : Dictionary (Branch (Option Json))) :
    settle (some c.kind) fields = combine c ((Branch.children c.key fields).filterMap id) := by
  cases c with
  | and =>
    have same : some Combinator.and.kind = some "And" := rfl
    rw [settle, if_pos same]
    rfl
  | or =>
    have notAnd : some Combinator.or.kind ≠ some "And" := by decide
    have same : some Combinator.or.kind = some "Or" := rfl
    rw [settle, if_neg notAnd, if_pos same]
    rfl

/-- What a combination sends is what its queries send. -/
theorem wire?_of_kind {c : Combinator} {t : Tree} (kind : t.kind = some c.kind) :
    t.wire? = combine c ((t.children c.key).filterMap wire?) := by
  obtain ⟨_, fields⟩ := t
  obtain rfl := kind
  rw [wire?, settle_combination, children_wireFields, List.filterMap_map]
  rfl

/-- The wire form of any other node. -/
theorem settle_eq_some_iff {kind : Option String} (other : ∀ c : Combinator, kind ≠ some c.kind)
    {fields : Dictionary (Branch (Option Json))} {v : Json} :
    settle kind fields = some v ↔ isBare kind fields = false ∧
      withKind kind (fields.filterMap settleField) ≠ [] ∧
        v = .obj (withKind kind (fields.filterMap settleField)) := by
  have notAnd : kind ≠ some "And" := other .and
  have notOr : kind ≠ some "Or" := other .or
  rw [settle, if_neg notAnd, if_neg notOr]
  cases isBare kind fields with
  | true => simp
  | false =>
    cases withKind kind (fields.filterMap settleField) with
    | nil => simp
    | cons field rest => simp [eq_comm]

theorem combine_ne_empty (c : Combinator) {items : List Json} (some : ∀ item ∈ items,
    item ≠ .obj []) : combine c items ≠ Option.some (.obj []) := by
  match items with
  | [] => exact nofun
  | [item] =>
    intro same
    exact some item (List.mem_singleton_self item) (Option.some.inj same)
  | first :: second :: rest => exact nofun

/-- A query that sends something does not send an empty object. -/
theorem wire?_ne_empty : ∀ t : Tree, t.wire? ≠ some (.obj []) := by
  refine induction fun kind fields ih => ?_
  by_cases combination : ∃ c : Combinator, kind = some c.kind
  · obtain ⟨c, rfl⟩ := combination
    rw [wire?, settle_combination, children_wireFields, List.filterMap_map]
    refine combine_ne_empty c fun item mem same => ?_
    obtain ⟨t, listed, sent⟩ := List.mem_filterMap.1 mem
    obtain ⟨field, place, inside⟩ := Branch.exists_of_mem_children listed
    exact ih field place t inside (same ▸ sent)
  · intro written
    have other : ∀ c : Combinator, kind ≠ some c.kind := fun c same => combination ⟨c, same⟩
    rw [wire?] at written
    obtain ⟨-, ne, same⟩ := (settle_eq_some_iff other).1 written
    exact ne (Json.obj.inj same).symm

/-- A query sends an empty object when nothing of it remains. -/
theorem wire_eq_empty_iff (t : Tree) : t.wire = .obj [] ↔ t.wire? = none := by
  have ne := t.wire?_ne_empty
  unfold wire
  cases sent : t.wire? with
  | none => simp
  | some v =>
    rw [sent] at ne
    simpa using ne

theorem wire_of_some {t : Tree} {json : Json} (sent : t.wire? = some json) : t.wire = json := by
  rw [wire, sent, Option.getD_some]

/-- Queries that send the same do so with the same remaining. -/
theorem wire_inj {t u : Tree} : t.wire = u.wire ↔ t.wire? = u.wire? := by
  have ne := t.wire?_ne_empty
  have ne₁ := u.wire?_ne_empty
  unfold wire
  cases sent : t.wire? with
  | none =>
    cases sent₁ : u.wire? with
    | none => simp
    | some w =>
      rw [sent₁] at ne₁
      simpa [eq_comm] using ne₁
  | some v =>
    rw [sent] at ne
    cases sent₁ : u.wire? with
    | none => simpa using ne
    | some w => simp

/-- A node with all its queries is not bare. -/
theorem isBare_eq_false (kind : Option String) {fields : Dictionary (Branch (Option Json))}
    (full : ∀ entry ∈ fields, entry.2 ≠ .query none) : isBare kind fields = false := by
  rw [isBare, Bool.and_eq_false_iff]
  refine .inr (List.any_eq_false.2 fun entry mem => ?_)
  have full := full entry mem
  split <;> simp_all

/-! ### What is written -/

theorem settled_of_combine {c : Combinator} {items : List Json} {v : Json}
    (settled : ∀ item ∈ items, item.Settled) (combined : combine c items = some v) :
    v.Settled := by
  match items with
  | [] => cases combined
  | [item] =>
    obtain rfl : item = v := Option.some.inj combined
    exact settled item (List.mem_singleton_self item)
  | first :: second :: rest =>
    cases combined
    exact .combination c (by simp) settled

/-- A field that is written is plain, a query that says something, or a list of such queries. -/
theorem of_mem_settled {fields : List (String × Branch Tree)} {key : String} {json : Json}
    (mem : (key, json) ∈ (wireFields fields).filterMap settleField) :
    ∃ branch, (key, branch) ∈ fields ∧ (branch = .value json ∨
      (∃ q, branch = .query q ∧ q.wire? = some json) ∨
      ∃ qs, branch = .queries qs ∧ json = .arr (qs.filterMap wire?)) := by
  rw [wireFields_eq_mapValues] at mem
  obtain ⟨field, listed, sent⟩ := List.mem_filterMap.1 mem
  obtain ⟨⟨k, branch⟩, place, rfl⟩ := List.mem_map.1 listed
  cases branch with
  | value value =>
    cases sent
    exact ⟨.value json, place, .inl rfl⟩
  | query q =>
    rw [wireBranch] at sent
    cases written : q.wire? with
    | none =>
      rw [written] at sent
      cases sent
    | some value =>
      rw [written] at sent
      cases sent
      exact ⟨.query q, place, .inr (.inl ⟨q, rfl, written⟩)⟩
  | queries qs =>
    rw [wireBranch, wireAll_eq_map] at sent
    cases sent
    refine ⟨.queries qs, place, .inr (.inr ⟨qs, rfl, ?_⟩)⟩
    rw [List.filterMap_map]
    rfl

/-- The kind is not among the fields that are written. -/
theorem settled_ne_type {kind : Option String} {fields : Dictionary (Branch Tree)}
    (fits : ∀ field ∈ fields, Fits kind field) :
    ∀ field ∈ (wireFields fields).filterMap settleField, field.1 ≠ "@type" := by
  rintro ⟨key, json⟩ mem
  obtain ⟨branch, place, -⟩ := of_mem_settled mem
  exact (fits _ place).ne_type

/-- **A legible tree is written in settled form**, if anything remains of it. -/
theorem Legible.settled_of_wire? {t : Tree} (h : t.Legible) :
    ∀ v, t.wire? = some v → v.Settled := by
  induction h with
  | @node kind fields fits _ ih =>
    intro v written
    rw [wire?] at written
    by_cases combination : ∃ c : Combinator, kind = some c.kind
    · obtain ⟨c, rfl⟩ := combination
      rw [settle_combination, children_wireFields, List.filterMap_map] at written
      refine settled_of_combine (fun item mem => ?_) written
      obtain ⟨t, listed, sent⟩ := List.mem_filterMap.1 mem
      obtain ⟨field, place, inside⟩ := Branch.exists_of_mem_children listed
      exact ih field place t inside item sent
    · have other : ∀ c : Combinator, kind ≠ some c.kind := fun c same => combination ⟨c, same⟩
      obtain ⟨-, ne, rfl⟩ := (settle_eq_some_iff other).1 written
      have plain : ∀ {key json}, HostKey key → (key, .value json) ∈ fields →
          ofField kind key json = .value json ∧ holdsQueries kind key = true :=
        fun host place => ⟨(fits _ place).2, (holdsQueries_iff other _).2 host⟩
      refine .node other ne (settled_ne_type fits) ?_ ?_
      · intro key inner host mem
        obtain ⟨branch, place, rfl | ⟨q, rfl, sent⟩ | ⟨qs, rfl, same⟩⟩ := of_mem_settled mem
        · obtain ⟨read, holds⟩ := plain host place
          rw [ofField_obj holds] at read
          cases read
        · exact ih _ place q (List.mem_singleton_self q) _ sent
        · cases same
      · intro key items host mem objects
        obtain ⟨branch, place, rfl | ⟨q, rfl, sent⟩ | ⟨qs, rfl, same⟩⟩ := of_mem_settled mem
        · obtain ⟨read, holds⟩ := plain host place
          rw [ofField_arr holds objects] at read
          cases read
        · have settled := ih _ place q (List.mem_singleton_self q) _ sent
          cases settled
        · cases same
          intro item mem
          obtain ⟨t, listed, sent⟩ := List.mem_filterMap.1 mem
          exact ih _ place t listed item sent

end Tree

/-- What is written is normal. -/
theorem Json.Settled.normal {v : Json} (h : v.Settled) : v.Normal := by
  induction h with
  | combination c two _ ih => exact .combination c two ih
  | @node kind fields other ne noType _ _ hosts lists =>
    refine .node ne ?_ ?_ ?_
    · intro json mem
      rcases Tree.mem_withKind noType mem with ⟨text, rfl, same⟩ | mem
      · cases same
        exact ⟨text, rfl, fun c same => other c (congrArg some same)⟩
      · exact absurd rfl (noType _ mem)
    · intro key inner host mem
      rcases Tree.mem_withKind noType mem with ⟨text, -, same⟩ | mem
      · cases same
      · exact hosts key inner host mem
    · intro key items host mem
      rcases Tree.mem_withKind noType mem with ⟨text, -, same⟩ | mem
      · cases same
      · exact lists key items host mem

/-! ### What is written is its own wire form -/

namespace Tree

theorem all_isObject_of_stable {items : List Json} (stable : ∀ item ∈ items, item.Stable) :
    items.all Json.isObject = true := by
  rw [List.all_eq_true]
  intro item mem
  have stable := stable item mem
  cases item with
  | obj fields => rfl
  | _ => exact stable.elim

theorem wireAll_ofItems : ∀ {items : List Json}, (∀ item ∈ items, item.Stable) →
    wireAll (ofItems items) = items.map some
  | [], _ => rfl
  | item :: rest, stable => by
    have ⟨first, others⟩ := List.forall_mem_cons.1 stable
    cases item with
    | obj fields =>
      have same : (ofFields fields).wire? = some (.obj fields) := first
      rw [ofItems, wireAll, wireAll_ofItems others]
      exact congrArg (· :: rest.map some) same
    | _ => exact first.elim

/-- Several queries are combined under the kind of the combination. -/
theorem combine_of_two_le (c : Combinator) {items : List Json} (two : 2 ≤ items.length) :
    combine c items = some (.obj [("@type", .str c.kind), (c.key, .arr items)]) := by
  match items with
  | _ :: _ :: _ => rfl

/-- A combination of queries that are their own wire forms is its own wire form. -/
theorem stable_combination (c : Combinator) {items : List Json} (two : 2 ≤ items.length)
    (stable : ∀ item ∈ items, item.Stable) :
    Json.Stable (.obj [("@type", .str c.kind), (c.key, .arr items)]) := by
  have apart : [("@type", Json.str c.kind), (c.key, .arr items)] =
      withKind (some c.kind) [(c.key, .arr items)] := by
    cases c <;> rfl
  have noType : ∀ field ∈ [(c.key, Json.arr items)], field.1 ≠ "@type" := by
    cases c <;> simp [Combinator.key]
  have holds : holdsQueries (some c.kind) c.key = true := by
    cases c <;> rfl
  have listed : Branch.children c.key [(c.key, .queries (items.map some))] = items.map some := by
    simp [Branch.children, Dictionary.find?]
  rw [apart]
  show (ofFields (withKind _ _)).wire? = some _
  rw [ofFields_withKind _ noType, List.map_singleton,
    ofField_arr holds (all_isObject_of_stable stable), wire?, wireFields, wireFields, wireBranch,
    wireAll_ofItems stable, settle_combination, listed, ← apart, List.filterMap_map]
  exact (congrArg _ List.filterMap_some).trans (combine_of_two_le c two)

/-- What the field of a node that is its own wire form is read as and written as. -/
theorem wireBranch_ofField {kind : Option String} (other : ∀ c : Combinator, kind ≠ some c.kind)
    {key : String} {json : Json}
    (query : HostKey key → ∀ inner, json = .obj inner → Json.Stable (.obj inner))
    (queries : HostKey key → ∀ items, json = .arr items → items.all Json.isObject = true →
      ∀ item ∈ items, item.Stable) :
    wireBranch (ofField kind key json) = .value json ∨
      wireBranch (ofField kind key json) = .query (some json) ∨
      ∃ items, json = .arr items ∧
        wireBranch (ofField kind key json) = .queries (items.map some) := by
  by_cases holds : holdsQueries kind key = true
  · have host := (holdsQueries_iff other key).1 holds
    cases json with
    | obj inner =>
      have same : (ofFields inner).wire? = some (.obj inner) := query host inner rfl
      rw [ofField_obj holds, wireBranch, same]
      exact .inr (.inl rfl)
    | arr items =>
      by_cases objects : items.all Json.isObject = true
      · rw [ofField_arr holds objects, wireBranch,
          wireAll_ofItems (queries host items rfl objects)]
        exact .inr (.inr ⟨items, rfl, rfl⟩)
      · have plain : ofField kind key (.arr items) = .value (.arr items) := by
          rw [ofField, if_neg (by simp [objects])]
        exact .inl (by rw [plain, wireBranch])
    | _ => exact .inl rfl
  · rw [ofField_of_not_holds (by simpa using holds)]
    exact .inl rfl

/-- A node whose queries are their own wire forms is its own wire form. -/
theorem stable_node {kind : Option String} {fields : Dictionary Json}
    (other : ∀ c : Combinator, kind ≠ some c.kind) (ne : withKind kind fields ≠ [])
    (noType : ∀ field ∈ fields, field.1 ≠ "@type")
    (query : ∀ key inner, HostKey key → (key, .obj inner) ∈ fields → Json.Stable (.obj inner))
    (queries : ∀ key items, HostKey key → (key, .arr items) ∈ fields →
      items.all Json.isObject = true → ∀ item ∈ items, item.Stable) :
    Json.Stable (.obj (withKind kind fields)) := by
  -- Whatever a field is read as, it is written as it was, and no query in it vanishes.
  have each : ∀ field ∈ fields, wireBranch (ofField kind field.1 field.2) = .value field.2 ∨
      wireBranch (ofField kind field.1 field.2) = .query (some field.2) ∨
      ∃ items, field.2 = .arr items ∧
        wireBranch (ofField kind field.1 field.2) = .queries (items.map some) := by
    rintro ⟨key, json⟩ mem
    refine wireBranch_ofField other (fun host inner same => ?_) fun host items same => ?_
    · exact query key inner host (same ▸ mem)
    · exact queries key items host (same ▸ mem)
  have written : wireFields (fields.map fun field => (field.1, ofField kind field.1 field.2)) =
      fields.map fun field => (field.1, wireBranch (ofField kind field.1 field.2)) := by
    rw [wireFields_eq_mapValues, Dictionary.mapValues, List.map_map]
    rfl
  have settled : (wireFields (fields.map fun field =>
      (field.1, ofField kind field.1 field.2))).filterMap settleField = fields := by
    rw [written, List.filterMap_map]
    refine (List.filterMap_congr fun field mem => ?_).trans List.filterMap_some
    obtain ⟨key, json⟩ := field
    rw [Function.comp_apply]
    rcases each _ mem with plain | one | ⟨items, rfl, several⟩
    · rw [plain, settleField]
    · rw [one, settleField]
    · rw [several, settleField]
      simp
  have notBare : isBare kind (wireFields (fields.map fun field =>
      (field.1, ofField kind field.1 field.2))) = false := by
    rw [written]
    refine isBare_eq_false kind (List.forall_mem_map.2 fun field mem => ?_)
    rcases each field mem with plain | one | ⟨items, -, several⟩
    · simp [plain]
    · simp [one]
    · simp [several]
  show (ofFields (withKind kind fields)).wire? = some _
  rw [ofFields_withKind _ noType, wire?]
  refine (settle_eq_some_iff other).2 ⟨notBare, ?_, ?_⟩
  · rw [settled]
    exact ne
  · rw [settled]

end Tree

/-- **What is written is its own wire form.** -/
theorem Json.Settled.stable {v : Json} (h : v.Settled) : v.Stable := by
  induction h with
  | combination c two _ ih => exact Tree.stable_combination c two ih
  | node other ne noType _ _ query queries =>
    exact Tree.stable_node other ne noType query queries

/-! ### Objects in order -/

/-- An object in order is its kind and its other fields. -/
theorem Json.withKind_erase {fields : Dictionary Json} (sorted : fields.Sorted)
    (text : ∀ json, ("@type", json) ∈ fields → ∃ kind, json = .str kind) :
    withKind (kindOf fields) (fields.erase "@type") = fields := by
  have noType : ∀ field ∈ fields.erase "@type", field.1 ≠ "@type" :=
    fun field mem => of_decide_eq_true (List.mem_filter.1 mem).2
  cases found : Dictionary.find? "@type" fields with
  | none =>
    have absent : ∀ field ∈ fields, field.1 ≠ "@type" := by
      rintro ⟨key, json⟩ mem rfl
      rw [sorted.find?_of_mem mem] at found
      cases found
    have none : kindOf fields = none := by
      rw [kindOf, found]
      rfl
    rw [none, withKind, Dictionary.erase_of_forall_ne absent]
  | some json =>
    obtain ⟨kind, rfl⟩ := text json (Dictionary.mem_of_find? found)
    have some : kindOf fields = some kind := by
      rw [kindOf, found]
      rfl
    rw [some, Tree.withKind_eq_insert noType, sorted.insert_erase found]

/-- A normal object in order is one that can be written. -/
theorem Json.Normal.settled {v : Json} (h : v.Normal) : v.Ordered → v.Settled := by
  induction h with
  | combination c two _ ih =>
    rintro ⟨-, -, ordered, -⟩
    exact .combination c two fun item mem => ih item mem ((orderedItems_iff _).1 ordered item mem)
  | @node fields ne text _ _ query queries =>
    rintro ⟨sorted, ordered⟩
    have ordered := (orderedFields_iff fields).1 ordered
    have apart := withKind_erase sorted fun json mem =>
      have ⟨kind, same, _⟩ := text json mem
      ⟨kind, same⟩
    have other : ∀ c : Combinator, kindOf fields ≠ some c.kind := by
      intro c found
      obtain ⟨json, listed, read⟩ := Option.bind_eq_some_iff.1 found
      obtain ⟨kind, rfl, other⟩ := text json (Dictionary.mem_of_find? listed)
      exact other c (Option.some.inj read)
    have settled : Settled (.obj (withKind (kindOf fields) (fields.erase "@type"))) := by
      refine .node other (by rwa [apart]) ?_ ?_ ?_
      · exact fun field mem => of_decide_eq_true (List.mem_filter.1 mem).2
      · intro key inner host mem
        have mem := (List.mem_filter.1 mem).1
        exact query key inner host mem (ordered _ mem)
      · intro key items host mem objects item inside
        have mem := (List.mem_filter.1 mem).1
        have items := (orderedItems_iff items).1 (ordered _ mem)
        exact queries key _ host mem objects item inside (items item inside)
    rwa [apart] at settled

namespace Store

/-- **What is read and written is normal, and a normal query is written as it was read.** -/
theorem load_normal (s : Store) {fields : Dictionary Json} (ordered : (Json.obj fields).Ordered) :
    (∀ v, (s.load fields).1.wire? (s.load fields).2 = some v → v.Normal) ∧
      ((Json.obj fields).Normal →
        (s.load fields).1.wire? (s.load fields).2 = some (.obj fields)) := by
  have tree : (s.load fields).1.tree (s.load fields).2 = .ofFields fields := s.tree_plant _
  rw [wire?, tree]
  have legible := Tree.legible_ofFields fields
  exact ⟨fun v written => (legible.settled_of_wire? v written).normal,
    fun normal => (normal.settled ordered).stable⟩

/-- A conjunction of two queries, one of them about a disjunction with one query. -/
theorem load_normal_conjunction : ∃ fields, (Json.obj fields).Ordered ∧
    fields = [("@type", .str "And"), ("and", .arr [.obj [("@type", .str "True")],
      .obj [("@type", .str "Not"), ("query", .obj [("@type", .str "Or"),
        ("or", .arr [.obj [("@type", .str "True")]])])]])] ∧
    (empty.load fields).1.wire? (empty.load fields).2 = some (.obj [("@type", .str "And"),
      ("and", .arr [.obj [("@type", .str "True")],
        .obj [("@type", .str "Not"), ("query", .obj [("@type", .str "True")])]])]) ∧
    (∀ v, (empty.load fields).1.wire? (empty.load fields).2 = some v → v.Normal) ∧
      ((Json.obj fields).Normal →
        (empty.load fields).1.wire? (empty.load fields).2 = some (.obj fields)) := by
  refine ⟨_, ?ordered, rfl, rfl, load_normal empty ?ordered⟩
  simp only [Json.Ordered, Json.OrderedFields, Json.OrderedItems, Dictionary.Sorted]
  decide

end Store

end GraphQuery
