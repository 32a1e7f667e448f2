import GraphQuery.Proofs.NormalForm
import GraphQuery.Proofs.Preservation

/-!
# Queries that are read back

Operations store sub-queries where reading an object finds them, and store everything else where it
does not. This holds as well when the kind of a node is set after its fields were read: the two
rules differ for combinations only, and these overwrite the field in question. So the tree of every
builder is legible, its raw form reads back as the same tree, and its wire form as a tree with the
same wire form.

Key definitions: `Gap.Legible`, `SubQuery.Legible`, `Sketch.Legible`.
Key theorems: `Sketch.Legible.perform`, `Builder.legible_of_reachable`, `Builder.ofJson_raw_wire`.
-/

namespace GraphQuery

namespace Tree

/-! ### Changing a node -/

theorem ofField_congr {kind kind₁ : Option String} {key : String}
    (same : holdsQueries kind key = holdsQueries kind₁ key) (json : Json) :
    ofField kind key json = ofField kind₁ key json := by
  cases json <;> simp only [ofField, same]

theorem Fits.changeKind {kind kind₁ : Option String} {field : String × Branch Tree}
    (fits : Fits kind field) (same : holdsQueries kind field.1 = holdsQueries kind₁ field.1) :
    Fits kind₁ field := by
  obtain ⟨key, branch⟩ := field
  cases branch with
  | value json => exact ⟨fits.1, (ofField_congr same json).symm.trans fits.2⟩
  | query q => exact same.symm.trans fits
  | queries qs => exact same.symm.trans fits

theorem fits_plain {key : String} (plain : PlainKey key) (kind : Option String) (json : Json) :
    Fits kind (key, .value json) := by
  simp only [PlainKey, List.mem_cons, List.not_mem_nil, or_false, not_or] at plain
  obtain ⟨notType, notQuery, notConsequent, notAnd, notOr⟩ := plain
  exact ⟨notType, ofField_of_not_holds
    (by simp [holdsQueries, notQuery, notConsequent, notAnd, notOr]) json⟩

theorem holdsQueries_of_hostKey {key : String} (host : HostKey key) (kind : Option String) :
    holdsQueries kind key = true := by
  rcases host with rfl | rfl <;> simp [holdsQueries]

theorem holdsQueries_combinator (c : Combinator) : holdsQueries (some c.kind) c.key = true := by
  cases c <;> rfl

namespace Legible

variable {t : Tree}

theorem fits (h : t.Legible) : ∀ field ∈ t.fields, Fits t.kind field := by
  cases h with
  | node fits _ => exact fits

theorem parts (h : t.Legible) : ∀ field ∈ t.fields, ∀ u ∈ field.2.all, u.Legible := by
  cases h with
  | node _ parts => exact parts

theorem set (h : t.Legible) {key : String} {branch : Branch Tree} (fits : Fits t.kind (key, branch))
    (parts : ∀ u ∈ branch.all, u.Legible) : (t.set key branch).Legible := by
  refine legible_of_each fun field mem => ?_
  rcases Dictionary.mem_insert mem with rfl | mem
  · exact ⟨fits, parts⟩
  · exact ⟨h.fits field mem, h.parts field mem⟩

theorem setQuery (h : t.Legible) {key : String} (host : HostKey key) {q : Tree} (part : q.Legible) :
    (t.set key (.query q)).Legible := by
  refine h.set (holdsQueries_of_hostKey host t.kind) fun u mem => ?_
  obtain rfl := List.mem_singleton.1 mem
  exact part

theorem children (h : t.Legible) (key : String) : ∀ u ∈ t.children key, u.Legible := by
  intro u mem
  obtain ⟨field, place, inside⟩ := Branch.exists_of_mem_children mem
  exact h.parts field place u inside

theorem append (h : t.Legible) {c : Combinator} (kind : t.kind = some c.kind) {given : List Tree}
    (parts : ∀ u ∈ given, u.Legible) : (t.append c.key given).Legible := by
  have holds : Fits t.kind (c.key, .queries (t.children c.key ++ given)) := by
    rw [kind]
    exact holdsQueries_combinator c
  exact h.set holds (List.forall_mem_append.2 ⟨h.children c.key, parts⟩)

theorem combination (c : Combinator) {ts : List Tree} (parts : ∀ t ∈ ts, t.Legible) :
    (Tree.node (some c.kind) [(c.key, .queries ts)]).Legible :=
  legible_of_each (by simpa using ⟨holdsQueries_combinator c, parts⟩)

theorem combined (h : t.Legible) (c : Combinator) : ∀ u ∈ t.combined c, u.Legible := by
  unfold Tree.combined
  by_cases kind : t.kind = some c.kind
  · rw [if_pos kind]
    exact h.children c.key
  · rw [if_neg kind]
    simpa using h

theorem conjoined (h : t.Legible) : t.conjoined.Legible := by
  unfold Tree.conjoined
  by_cases kind : t.kind = some "And"
  · rw [if_pos kind]
    exact h
  · rw [if_neg kind]
    exact .combination .and (by simpa using h)

/-- A node without a kind gets one and plain fields. -/
theorem write (h : t.Legible) (free : t.kind = none) {kind : String} {given : List (String × Json)}
    (other : ∀ c : Combinator, kind ≠ c.kind) (plain : PlainFields given) :
    (t.write kind given).Legible := by
  refine legible_of_each fun field mem => ?_
  rcases Branch.mem_withValues given mem with mem | ⟨source, listed, rfl⟩
  · have notAnd : kind ≠ "And" := other .and
    have notOr : kind ≠ "Or" := other .or
    have fits := h.fits field mem
    rw [free] at fits
    exact ⟨fits.changeKind (by simp [holdsQueries, notAnd, notOr]), h.parts field mem⟩
  · exact ⟨fits_plain (plain source listed) _ _, List.forall_mem_nil _⟩

/-- A node without a kind becomes a disjunction. The field of its queries is written anew. -/
theorem beginOr (h : t.Legible) (free : t.kind = none) (sorted : t.fields.Sorted) :
    ((t.write "Or" []).set "or" (.queries [])).Legible := by
  refine legible_of_each fun field mem => ?_
  have sorted : (t.write "Or" []).fields.Sorted := sorted
  rcases List.mem_cons.1 (sorted.insert_perm.mem_iff.1 mem) with rfl | mem
  · exact ⟨rfl, nofun⟩
  · -- An `or` that was read as plain JSON is gone, and only there do the two kinds differ.
    obtain ⟨place, ne⟩ := List.mem_filter.1 mem
    have notOr : field.1 ≠ "or" := of_decide_eq_true ne
    have fits := h.fits field place
    have kind : (t.write "Or" []).kind = some "Or" := rfl
    rw [free] at fits
    exact ⟨fits.changeKind (by simp [holdsQueries, notOr, kind]), h.parts field place⟩

end Legible

end Tree

/-! ### Changing a sketch -/

/-- Filling the gap with a legible tree leaves the field legible. -/
def Gap.Legible (gap : Gap Tree) : Prop :=
  ∀ t : Tree, t.Legible → ∀ u ∈ (gap.fill t).all, u.Legible

theorem Gap.legible_single : (Gap.single : Gap Tree).Legible := by
  intro t h u mem
  obtain rfl := List.mem_singleton.1 mem
  exact h

theorem Gap.legible_among {before after : List Tree} (h : ∀ t ∈ before, t.Legible)
    (h₁ : ∀ t ∈ after, t.Legible) : (Gap.among before after).Legible := by
  intro t legible u mem
  rcases List.mem_append.1 mem with mem | mem
  · exact h u mem
  · rcases List.mem_cons.1 mem with rfl | mem
    · exact legible
    · exact h₁ u mem

theorem Gap.Legible.extend {gap : Gap Tree} (h : gap.Legible) {given : List Tree}
    (added : ∀ t ∈ given, t.Legible) : (gap.extend given).Legible := by
  cases gap with
  | single => exact legible_single
  | among before after =>
    intro t legible u mem
    have mem : u ∈ before ++ t :: (after ++ given) := mem
    rw [← List.cons_append, ← List.append_assoc] at mem
    rcases List.mem_append.1 mem with mem | mem
    · exact h t legible u mem
    · exact added u mem

/-- What the sub-query is stored as is legible. -/
def SubQuery.Legible (q : SubQuery) : Prop :=
  ∀ op field t, q.tree op field = .ok t → t.Legible

/-- Adding sub-queries to a combination leaves it legible, and its gap too. -/
theorem Tree.Legible.pushAll (c : Combinator) : ∀ {qs : List SubQuery} {t after : Tree}
    {gap gap₁ : Option (Gap Tree)}, t.Legible → t.kind = some c.kind → (∀ g ∈ gap, g.Legible) →
      (∀ q ∈ qs, q.Legible) → t.pushAll c gap qs = .ok (after, gap₁) →
        after.Legible ∧ after.kind = some c.kind ∧ ∀ g ∈ gap₁, g.Legible
  | [], _, _, _, _, h, kind, gapped, _, pushed => by
    cases pushed
    exact ⟨h, kind, gapped⟩
  | q :: qs, t, after, gap, gap₁, h, kind, gapped, parts, pushed => by
    obtain ⟨first, others⟩ := List.forall_mem_cons.1 parts
    rw [Tree.pushAll] at pushed
    obtain ⟨given, found, pushed⟩ := bind_eq_ok_iff.1 pushed
    have added := (first _ _ given found).combined c
    have gapped₁ : ∀ g ∈ (if q.isFollowing then some (.among (t.children c.key) [])
        else gap.map (Gap.extend (given.combined c))), g.Legible := by
      by_cases following : q.isFollowing
      · rw [if_pos following]
        rintro g ⟨⟩
        exact Gap.legible_among (h.children c.key) (List.forall_mem_nil _)
      · rw [if_neg following]
        intro g mem
        obtain ⟨g, old, rfl⟩ := Option.map_eq_some_iff.1 mem
        exact (gapped g old).extend added
    exact pushAll c (h.append kind added) kind gapped₁ others pushed

namespace Sketch

/-- The query around the focus is legible with anything legible in the place of the focus, and so is
the focus. -/
structure Legible (k : Sketch) : Prop where
  frames : ∀ t : Tree, t.Legible → (t.within k.frames).Legible
  conjunction : ∀ fields ∈ k.conjunction, (Tree.node (some "And") fields).Legible
  focus : k.focus.Legible

namespace Legible

variable {k after : Sketch}

theorem path (h : k.Legible) {t : Tree} (legible : t.Legible) : (t.within k.path).Legible := by
  have conjunction := h.conjunction
  unfold Sketch.path
  cases found : k.conjunction with
  | none => exact h.frames t legible
  | some fields =>
    have inner : t.within (.conjunction fields :: k.frames) =
        ((Tree.node (some "And") fields).append "and" [t]).within k.frames := rfl
    rw [inner]
    have whole := conjunction fields found
    exact h.frames _ (whole.append (c := .and) rfl (by simpa using legible))

theorem tree (h : k.Legible) : k.tree.Legible := h.path h.focus

theorem setFocus (h : k.Legible) {t : Tree} (legible : t.Legible) :
    Legible { k with focus := t } :=
  ⟨h.frames, h.conjunction, legible⟩

theorem descend (h : k.Legible) {key : String} {gap : Gap Tree}
    (holds : Tree.holdsQueries k.focus.kind key = true) (legible : gap.Legible) :
    (k.descend key gap).Legible := by
  refine ⟨fun t part => ?_, nofun, Tree.legible_empty⟩
  have inner : t.within (⟨k.focus.kind, k.focus.fields, key, gap⟩ :: k.path) =
      (k.focus.set key (gap.fill t)).within k.path := rfl
  show (t.within (⟨k.focus.kind, k.focus.fields, key, gap⟩ :: k.path)).Legible
  rw [inner]
  refine h.path (h.focus.set ?_ (legible t part))
  cases gap <;> exact holds

theorem openConjunction (h : k.Legible) : k.openConjunction.Legible := by
  have conjunction := h.conjunction
  unfold Sketch.openConjunction
  cases found : k.conjunction with
  | none => exact h.focus.conjoined
  | some fields =>
    have whole := conjunction fields found
    exact whole.append (c := .and) rfl (by simpa using h.focus)

theorem conjoin (h : k.Legible) : k.conjoin.Legible := by
  refine ⟨h.frames, ?_, Tree.legible_empty⟩
  rintro fields ⟨⟩
  have legible := h.openConjunction
  have kind := k.openConjunction_kind
  cases open_ : k.openConjunction with
  | node kind₁ fields =>
    rw [open_] at legible kind
    obtain rfl : kind₁ = some "And" := kind
    exact legible

/-- There is a focus without a kind for the next node. -/
theorem free (h : k.Legible) (sorted : k.focus.fields.Sorted) :
    k.free.Legible ∧ k.free.focus.kind = none ∧ k.free.focus.fields.Sorted := by
  unfold Sketch.free
  by_cases taken : k.focus.kind.isSome
  · rw [if_pos taken]
    exact ⟨h.conjoin, rfl, Dictionary.sorted_nil⟩
  · rw [if_neg taken]
    exact ⟨h, by simpa using taken, sorted⟩

theorem write (h : k.Legible) (sorted : k.focus.fields.Sorted) {op : Operation}
    {fields : List (String × Json)} (other : ∀ c : Combinator, op.kind ≠ c.kind)
    (plain : PlainFields fields) : (k.write op fields).Legible := by
  obtain ⟨legible, kind, -⟩ := h.free sorted
  exact legible.setFocus (legible.focus.write kind other plain)

theorem host (h : k.Legible) (sorted : k.focus.fields.Sorted) {op : Operation}
    {fields : List (String × Json)} {q : SubQuery} (other : ∀ c : Combinator, op.kind ≠ c.kind)
    (plain : PlainFields fields) (part : q.Legible) (ran : k.host op fields q = .ok after) :
    after.Legible := by
  obtain ⟨t, found, rfl⟩ := host_eq_ok_iff.1 ran
  have hostKey : HostKey "query" := .inl rfl
  have written := h.write sorted other plain
  have placed := written.setFocus (written.focus.setQuery hostKey (part _ _ t found))
  by_cases following : q.isFollowing
  · simp only [if_pos following]
    exact placed.descend (Tree.holdsQueries_of_hostKey hostKey _) Gap.legible_single
  · simp only [if_neg following]
    exact placed

theorem when (h : k.Legible) (sorted : k.focus.fields.Sorted) {condition consequent : SubQuery}
    (part : condition.Legible) (part₁ : consequent.Legible)
    (ran : k.when condition consequent = .ok after) : after.Legible := by
  obtain ⟨-, query, next, found, found₁, rfl⟩ := when_eq_ok_iff.1 ran
  have hostQuery : HostKey "query" := .inl rfl
  have hostNext : HostKey "consequent" := .inr rfl
  have other : ∀ c : Combinator, Operation.when.kind ≠ c.kind := by
    intro c
    cases c <;> decide
  have written := h.write sorted other (show PlainFields [] by simp [PlainFields])
  have first := written.focus.setQuery hostQuery (part _ _ query found)
  have placed := written.setFocus (first.setQuery hostNext (part₁ _ _ next found₁))
  by_cases later : consequent.isFollowing
  · simp only [if_pos later]
    exact placed.descend (Tree.holdsQueries_of_hostKey hostNext _) Gap.legible_single
  · by_cases sooner : condition.isFollowing
    · simp only [if_neg later, if_pos sooner]
      exact placed.descend (Tree.holdsQueries_of_hostKey hostQuery _) Gap.legible_single
    · simp only [if_neg later, if_neg sooner]
      exact placed

theorem appendAll (h : k.Legible) {c : Combinator} (kind : k.focus.kind = some c.kind)
    {qs : List SubQuery} (parts : ∀ q ∈ qs, q.Legible) (ran : k.appendAll c qs = .ok after) :
    after.Legible := by
  obtain ⟨⟨t, gap⟩, pushed, built⟩ := bind_eq_ok_iff.1 ran
  have none : ∀ g ∈ (none : Option (Gap Tree)), g.Legible := nofun
  obtain ⟨legible, kind₁, gapped⟩ := h.focus.pushAll c kind none parts pushed
  have placed := h.setFocus legible
  cases gap with
  | none =>
    obtain rfl := Except.ok.inj built
    exact placed
  | some gap =>
    obtain rfl := Except.ok.inj built
    have holds : Tree.holdsQueries t.kind c.key = true := by
      rw [kind₁]
      exact Tree.holdsQueries_combinator c
    exact placed.descend holds (gapped gap rfl)

theorem and (h : k.Legible) {qs : List SubQuery} (parts : ∀ q ∈ qs, q.Legible)
    (ran : k.and qs = .ok after) : after.Legible := by
  have frames : ∀ t : Tree, t.Legible → (t.within k.path).Legible := fun t legible => h.path legible
  have ran : k.beginAnd.appendAll .and qs = .ok after := ran
  have begun : k.beginAnd.Legible ∧ k.beginAnd.focus.kind = some "And" := by
    unfold Sketch.beginAnd
    by_cases taken : k.focus.kind.isSome
    · rw [if_pos taken]
      exact ⟨⟨frames, nofun, h.focus.conjoined⟩, k.focus.conjoined_kind⟩
    · rw [if_neg taken]
      exact ⟨⟨frames, nofun, .combination .and (List.forall_mem_nil _)⟩, rfl⟩
  exact begun.1.appendAll (c := .and) begun.2 parts ran

theorem or (h : k.Legible) (sorted : k.focus.fields.Sorted) {qs : List SubQuery}
    (parts : ∀ q ∈ qs, q.Legible) (ran : k.or qs = .ok after) : after.Legible := by
  obtain ⟨legible, kind, sorted₁⟩ := h.free sorted
  have ran : k.beginOr.appendAll .or qs = .ok after := ran
  have begun : k.beginOr.Legible := legible.setFocus (legible.focus.beginOr kind sorted₁)
  exact begun.appendAll (c := .or) rfl parts ran

/-- **An edit leaves the query legible.** -/
theorem perform (h : k.Legible) (sorted : k.focus.fields.Sorted) {e : Edit} (plain : e.Plain)
    (parts : ∀ q ∈ e.subQueries, q.Legible) (ran : k.perform e = .ok after) : after.Legible := by
  cases e with
  | write op fields =>
    cases ran
    exact h.write sorted plain.1 plain.2
  | host op fields q =>
    exact h.host sorted plain.1 plain.2 (parts q (by simp [Edit.subQueries])) ran
  | when condition consequent =>
    exact h.when sorted (parts condition (by simp [Edit.subQueries]))
      (parts consequent (by simp [Edit.subQueries])) ran
  | and qs => exact h.and parts ran
  | or qs => exact h.or sorted parts ran

end Legible

end Sketch

/-! ### Builders -/

namespace Builder

/-- A builder that realizes a legible sketch. -/
def Legible (b : Builder) : Prop := ∃ k, b.Realizes k ∧ k.Legible

variable {a b after : Builder}

/-- The fields at the cursor are in order. -/
theorem Realizes.sorted_focus {k : Sketch} (h : b.Realizes k) : k.focus.fields.Sorted := by
  obtain ⟨rings, p, d⟩ := h
  rw [← d.focus_eq, p.tree_fields]
  exact Dictionary.sorted_mapValues_iff.2 d.shows_.sorted

theorem Legible.tree (h : b.Legible) : (b.store.tree b.root).Legible := by
  obtain ⟨k, realizes, legible⟩ := h
  rw [realizes.tree_eq]
  exact legible.tree

/-- A sub-query is legible if it is no builder, or a legible one. -/
theorem legible_subQuery {q : SubQuery} (part : ∀ b, q = .query b → b.Legible) : q.Legible := by
  intro op field t found
  cases q with
  | following =>
    cases found
    exact Tree.legible_empty
  | query b =>
    cases found
    exact (part b rfl).tree
  | truth =>
    cases found
    exact .node nofun nofun
  | json json =>
    cases json with
    | obj fields =>
      cases found
      exact Tree.legible_ofFields fields
    | _ => cases found

theorem kept_legible : KeptByEdits Legible SubQuery.Legible where
  blank vocabulary expandsPaths :=
    ⟨_, realizes_blank vocabulary expandsPaths, fun _ h => h, nofun, Tree.legible_empty⟩
  query := fun h => legible_subQuery fun _ same => SubQuery.query.inj same ▸ h
  following := legible_subQuery nofun
  perform := by
    rintro b after e ⟨k, realizes, legible⟩ plain parts ran
    obtain ⟨k₁, ran₁, realizes₁⟩ := (ran ▸ realizes.perform e).exists_right
    exact ⟨k₁, realizes₁, legible.perform realizes.sorted_focus plain parts ran₁⟩

/-- The combination of legible queries is legible. -/
theorem legible_combination {j k k₁ : Sketch} (c : Combinator) (h : j.Legible) (h₁ : k.Legible)
    (realizes : after.Realizes (k₁.combination c [j.tree, k.tree])) : after.Legible := by
  refine ⟨_, realizes, fun _ h => h, nofun, .combination c ?_⟩
  intro u mem
  obtain ⟨t, listed, inside⟩ := List.mem_flatMap.1 mem
  rcases List.mem_pair.1 listed with rfl | rfl
  · exact h.tree.combined c u inside
  · exact h₁.tree.combined c u inside

/-- **The query of every builder is legible.** -/
theorem legible_of_reachable (reachable : Reachable Initial b) : b.Legible := by
  refine kept_legible.of_reachable ?_ (fun _ => legible_subQuery) ?_ ?_ ?_ reachable
  · intro b initial
    cases initial with
    | ofVocabulary vocabulary => exact kept_legible.blank vocabulary true
    | ofConfig config => exact kept_legible.blank config.vocabulary config.expandsPaths
    | @ofJson json _ ordered built =>
      cases json with
      | obj fields =>
        exact ⟨_, realizes_ofJson ordered.1 built, fun _ h => h, nofun,
          Tree.legible_ofFields fields⟩
      | _ => cases built
  · rintro b given ⟨k, realizes, legible⟩
    exact ⟨_, realizes.extendVocabulary given, legible.frames, legible.conjunction, legible.focus⟩
  · rintro a b ⟨j, ha, h⟩ ⟨k, hb, h₁⟩
    exact legible_combination .and h h₁ (ha.both hb)
  · rintro a b ⟨j, ha, h⟩ ⟨k, hb, h₁⟩
    exact legible_combination .or h h₁ (ha.either hb)

/-- A builder that goes on with an object has the query that the object is. -/
theorem ofJson_obj (fields : Dictionary Json) :
    ∃ q, ofJson (.obj fields) = .ok q ∧ q.store.tree q.root = .ofFields fields :=
  ⟨_, rfl, fresh.store.tree_plant (.ofFields fields)⟩

/-- **A query is read back from its raw form, and its wire form from itself.** What is read from the
raw form has the same raw form and the same wire form, and what is read from the wire form has the
same wire form. -/
theorem ofJson_raw_wire (reachable : Reachable Initial b) :
    (ofJson b.raw).map raw = .ok b.raw ∧ (ofJson b.raw).map wire = .ok b.wire ∧
      (ofJson b.wire).map wire = .ok b.wire := by
  have legible := (legible_of_reachable reachable).tree
  obtain ⟨fields, written, read⟩ := legible.reads_raw
  obtain ⟨q, made, tree⟩ := ofJson_obj fields
  have same : q.store.tree q.root = b.store.tree b.root := tree.trans read
  have rawForm : b.raw = .obj fields := written
  refine ⟨?_, ?_, ?_⟩
  · rw [rawForm, made]
    exact congrArg Except.ok ((congrArg Tree.raw same).trans rawForm)
  · rw [rawForm, made]
    exact congrArg (fun t : Tree => Except.ok t.wire) same
  · unfold wire Tree.wire
    cases sent : (b.store.tree b.root).wire? with
    | none =>
      obtain ⟨q, made, tree⟩ := ofJson_obj []
      have none : (Tree.ofFields []).wire? = none := Tree.wire?_empty
      rw [Option.getD_none, made]
      show Except.ok ((q.store.tree q.root).wire?.getD (.obj [])) = _
      rw [tree, none, Option.getD_none]
    | some json =>
      have stable := (legible.settled_of_wire? json sent).stable
      cases json with
      | obj fields =>
        obtain ⟨q, made, tree⟩ := ofJson_obj fields
        have again : (Tree.ofFields fields).wire? = some (.obj fields) := stable
        rw [Option.getD_some, made]
        show Except.ok ((q.store.tree q.root).wire?.getD (.obj [])) = _
        rw [tree, again, Option.getD_some]
      | _ => exact stable.elim

/-- A finished query without a kind becomes a disjunction with a chained query. -/
theorem ofJson_raw_wire_or : ∃ b, Reachable Initial b ∧
    b.raw = .obj [("@type", .str "Or"), ("or", .arr [.obj [("@type", .str "True")], .obj []]),
      ("query", .obj [("@type", .str "And"), ("and", .arr [])])] ∧
    b.wire = .obj [("@type", .str "True")] ∧
    (ofJson b.raw).map raw = .ok b.raw ∧ (ofJson b.raw).map wire = .ok b.wire ∧
      (ofJson b.wire).map wire = .ok b.wire := by
  obtain ⟨start, after, made, ran, rawForm, wireForm⟩ : ∃ start after,
      ofJson (.obj [("or", .arr [.obj [("b", .null)]]),
        ("query", .obj [("@type", .str "And"), ("and", .arr [])])]) = .ok start ∧
        start.run (.or [.truth, .following]) = .ok after ∧
        after.raw = .obj [("@type", .str "Or"),
          ("or", .arr [.obj [("@type", .str "True")], .obj []]),
          ("query", .obj [("@type", .str "And"), ("and", .arr [])])] ∧
        after.wire = .obj [("@type", .str "True")] := ⟨_, _, rfl, rfl, rfl, rfl⟩
  have ordered : (Json.obj [("or", .arr [.obj [("b", .null)]]),
      ("query", .obj [("@type", .str "And"), ("and", .arr [])])]).Ordered := by
    simp only [Json.Ordered, Json.OrderedFields, Json.OrderedItems, Dictionary.Sorted]
    decide
  have reachable : Reachable Initial after := by
    refine .run (.start (.ofJson ordered made)) ?_ ran
    simp [Call.subQueries]
  exact ⟨after, reachable, rawForm, wireForm, ofJson_raw_wire reachable⟩

end Builder

end GraphQuery
