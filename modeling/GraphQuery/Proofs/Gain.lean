import GraphQuery.Proofs.PlainFields

/-!
# What an edit adds to the updates of a sketch

A sketch is sound when the scan for updates sees everything in it. An edit keeps a sketch sound, and
afterwards there is an update if there was one before or the edit brings one: through the node it
writes or through a sub-query.

Key definitions: `SubQuery.hasUpdate`, `Sketch.Sound`, `Sketch.Gains`, `Edit.hasUpdate`.
Key theorems: `Sketch.Sound.perform`.
-/

namespace GraphQuery

/-- Whether a sub-query that is no finished JSON brings an update. -/
def SubQuery.hasUpdate : SubQuery → Bool
  | query b => b.hasUpdate
  | _ => false

/-- The scan sees everything in the tree of a sub-query. -/
def SubQuery.Sound (q : SubQuery) : Prop :=
  ∀ op field t, q.tree op field = .ok t → t.Built ∧ t.hasUpdate = q.hasUpdate

namespace Edit

/-- The fields that an edit writes are none that the scan looks at. -/
def Plain : Edit → Prop
  | write op fields | host op fields _ =>
    (∀ c : Combinator, op.kind ≠ c.kind) ∧ PlainFields fields
  | _ => True

/-- Whether an edit brings an update. -/
def hasUpdate : Edit → Bool
  | write op _ => isUpdateKind op.kind
  | host op _ q => isUpdateKind op.kind || q.hasUpdate
  | when condition consequent => condition.hasUpdate || consequent.hasUpdate
  | and qs | or qs => qs.any SubQuery.hasUpdate

end Edit

namespace Sketch

/-- The scan sees everything in a sketch. -/
structure Sound (k : Sketch) : Prop where
  frames : Encloses k.frames
  conjunction : ∀ fields, k.conjunction = some fields →
    ∃ ts, fields = [("and", .queries ts)] ∧ ∀ t ∈ ts, t.Built
  focus : k.focus.Built

/-- The second sketch is sound and has an update if the first has one or one is gained. -/
def Gains (k : Sketch) (gained : Bool) (after : Sketch) : Prop :=
  after.Sound ∧ after.tree.hasUpdate = (k.tree.hasUpdate || gained)

variable {k after : Sketch}

theorem Gains.trans {middle : Sketch} {u v : Bool} (h : k.Gains u middle)
    (h₁ : middle.Gains v after) : k.Gains (u || v) after :=
  ⟨h₁.1, by rw [h₁.2, h.2, Bool.or_assoc]⟩

theorem Sound.gains (h : k.Sound) : k.Gains false k := ⟨h, (Bool.or_false _).symm⟩

namespace Sound

theorem path (h : k.Sound) : Encloses k.path := by
  unfold Sketch.path
  cases open_ : k.conjunction with
  | none => exact h.frames
  | some fields =>
    obtain ⟨ts, rfl, built⟩ := h.conjunction fields open_
    have children : Branch.children "and" [("and", Branch.queries ts)] = ts := by
      simp [Branch.children, Dictionary.find?]
    have innermost : Encloses [Frame.conjunction [("and", .queries ts)]] := by
      rw [Frame.conjunction, children]
      exact Encloses.among .and ts built (by simp)
    exact innermost.append h.frames

theorem tree (h : k.Sound) : k.tree.Built := (h.path k.focus h.focus).1

theorem tree_hasUpdate (h : k.Sound) :
    k.tree.hasUpdate = ((Tree.empty.within k.path).hasUpdate || k.focus.hasUpdate) :=
  (h.path k.focus h.focus).2

/-- Changing the focus gains what the new focus has more than the old one. -/
theorem setFocus (h : k.Sound) {t : Tree} {gained : Bool} (built : t.Built)
    (update : t.hasUpdate = (k.focus.hasUpdate || gained)) :
    k.Gains gained { k with focus := t } := by
  have sound : Sound { k with focus := t } := ⟨h.frames, h.conjunction, built⟩
  refine ⟨sound, ?_⟩
  rw [h.tree_hasUpdate, sound.tree_hasUpdate, update, Bool.or_assoc]
  rfl

/-- Moving the focus into a gap gains nothing. -/
theorem descend (h : k.Sound) {key : String} {gap : Gap Tree}
    (refill : k.focus.set key (gap.fill .empty) = k.focus)
    (encloses : Encloses [⟨k.focus.kind, k.focus.fields, key, gap⟩]) :
    k.Gains false (k.descend key gap) := by
  refine ⟨⟨encloses.append h.path, by simp [Sketch.descend], .empty⟩, ?_⟩
  have same : (k.descend key gap).tree = (k.focus.set key (gap.fill .empty)).within k.path := rfl
  rw [same, refill, Bool.or_false]
  rfl

end Sound

theorem Gains.descend {gained : Bool} {key : String} {gap : Gap Tree} (gains : k.Gains gained after)
    (refill : after.focus.set key (gap.fill .empty) = after.focus)
    (encloses : Encloses [⟨after.focus.kind, after.focus.fields, key, gap⟩]) :
    k.Gains gained (after.descend key gap) := by
  have all := gains.trans (gains.1.descend refill encloses)
  rwa [Bool.or_false] at all

/-- Going on in an empty query that the node at the focus is about. -/
theorem Gains.enter {gained : Bool} {kind key : String} (gains : k.Gains gained after)
    (some_kind : after.focus.kind = some kind) (other : ∀ c : Combinator, kind ≠ c.kind)
    (host : HostKey key) (refill : after.focus.set key (.query .empty) = after.focus) :
    k.Gains gained (after.descend key .single) := by
  have focus : after.focus = .node (some kind) after.focus.fields := by
    cases same : after.focus with
    | node kind₁ fields =>
      rw [same] at some_kind
      obtain rfl : kind₁ = some kind := some_kind
      rfl
  have built : (Tree.node (some kind) after.focus.fields).Built := focus ▸ gains.1.focus
  apply gains.descend refill
  rw [some_kind]
  exact Encloses.single built other host

namespace Sound

/-! ### Writing -/

/-- The conjunction that the next query is added to has the updates of the query so far. -/
theorem openConjunction (h : k.Sound) : ∃ ts,
    k.openConjunction = .node (some "And") [("and", .queries ts)] ∧ (∀ t ∈ ts, t.Built) ∧
      (k.openConjunction.within k.frames).hasUpdate = k.tree.hasUpdate := by
  unfold Sketch.openConjunction Sketch.tree Sketch.path
  cases open_ : k.conjunction with
  | none =>
    obtain ⟨ts, conjoined, built, update⟩ := h.focus.conjoined
    refine ⟨ts, conjoined, built, ?_⟩
    have before := (h.frames k.focus h.focus).2
    have after := (h.frames k.focus.conjoined (conjoined ▸ .combination .and built)).2
    simp only [before, after, update]
  | some fields =>
    obtain ⟨ts, rfl, built⟩ := h.conjunction fields open_
    refine ⟨ts ++ [k.focus], ?_, ?_, rfl⟩
    · show Tree.node (some "And") ((Frame.conjunction [("and", .queries ts)]).filled k.focus) = _
      rw [Frame.filled_conjunction]
    · intro t mem
      rcases List.mem_append.1 mem with mem | mem
      · exact built t mem
      · rw [List.mem_singleton.1 mem]
        exact h.focus

theorem conjoin (h : k.Sound) : k.Gains false k.conjoin := by
  obtain ⟨ts, same, built, update⟩ := h.openConjunction
  have sound : k.conjoin.Sound := by
    refine ⟨h.frames, ?_, .empty⟩
    intro fields found
    cases found
    rw [same]
    exact ⟨ts, rfl, built⟩
  have grown : ∀ t ∈ ts ++ [.empty], t.Built := by
    intro t mem
    rcases List.mem_append.1 mem with mem | mem
    · exact built t mem
    · rw [List.mem_singleton.1 mem]
      exact .empty
  have tree : k.conjoin.tree =
      (Tree.node (some "And") [("and", .queries (ts ++ [.empty]))]).within k.frames := by
    have path : k.conjoin.path = .conjunction k.openConjunction.fields :: k.frames := rfl
    rw [Sketch.tree, path, same, ← Frame.filled_conjunction]
    rfl
  have before := (h.frames _ (.combination .and built)).2
  have after := (h.frames _ (.combination .and grown)).2
  rw [Tree.hasUpdate_combination .and] at before
  rw [Tree.hasUpdate_combination .and] at after
  refine ⟨sound, ?_⟩
  rw [tree, Bool.or_false, ← update, same]
  refine after.trans (Eq.trans ?_ before.symm)
  simp [Tree.hasUpdate_empty]

/-- There is always a free place for the next node. -/
theorem write_eq (h : k.Sound) : ∃ free : Sketch, k.Gains false free ∧ free.focus = .empty ∧
    ∀ op fields, k.write op fields = { free with focus := Tree.empty.write op.kind fields } := by
  by_cases taken : k.focus.kind.isSome
  · refine ⟨k.conjoin, h.conjoin, rfl, ?_⟩
    intro op fields
    rw [Sketch.write, if_pos taken]
    rfl
  · have empty : k.focus = .empty := h.focus.eq_empty (by simpa using taken)
    refine ⟨k, h.gains, empty, ?_⟩
    intro op fields
    rw [Sketch.write, if_neg taken]
    simp only [empty]

theorem write (h : k.Sound) (op : Operation) (fields : List (String × Json))
    (other : ∀ c : Combinator, op.kind ≠ c.kind) (plain : PlainFields fields) :
    k.Gains (isUpdateKind op.kind) (k.write op fields) ∧
      (k.write op fields).focus = Tree.empty.write op.kind fields := by
  obtain ⟨free, gains, empty, written⟩ := h.write_eq
  obtain ⟨built, update⟩ := Tree.built_write other plain
  rw [written]
  refine ⟨?_, rfl⟩
  have gained := gains.1.setFocus built (by rw [update, empty]; rfl)
  exact gains.trans gained

/-- A node that is about a query has the updates of both. -/
theorem host (h : k.Sound) {op : Operation} {fields : List (String × Json)} {q : SubQuery}
    (other : ∀ c : Combinator, op.kind ≠ c.kind) (plain : PlainFields fields)
    (sound : q.Sound) (ran : k.host op fields q = .ok after) :
    k.Gains (isUpdateKind op.kind || q.hasUpdate) after := by
  obtain ⟨written, focus⟩ := h.write op fields other plain
  obtain ⟨built, -⟩ := Tree.built_write other plain
  have hostKey : HostKey "query" := .inl rfl
  have absent : ∀ field ∈ Branch.withValues fields ([] : Dictionary (Branch Tree)),
      field.1 ≠ "query" := by
    intro field mem same
    rcases Branch.mem_withValues fields mem with none | ⟨source, listed, rfl⟩
    · cases none
    · exact absurd (plain source listed) (same ▸ by decide)
  obtain ⟨t, found, built_after⟩ := host_eq_ok_iff.1 ran
  obtain ⟨built_t, update⟩ := sound op "query" t found
  have placed : (k.write op fields).Gains t.hasUpdate { k.write op fields with
      focus := (k.write op fields).focus.set "query" (.query t) } := by
    rw [focus]
    apply written.1.setFocus (built.set_query other hostKey built_t)
    rw [focus]
    exact Tree.hasUpdate_add_query built other hostKey built_t absent
  have gains := written.trans placed
  rw [update] at gains
  rw [built_after]
  dsimp only
  split
  · next following =>
    have empty := SubQuery.eq_empty_of_isFollowing following found
    apply gains.enter (by rw [focus]; rfl) other hostKey
    rw [empty]
    exact Tree.set_set _ _ _ _
  · exact gains

/-- A node about a condition and a consequent has the updates of both. -/
theorem built_when {t t₁ : Tree} (built_t : t.Built) (built_t₁ : t₁.Built) :
    let both := ((Tree.empty.write Operation.when.kind []).set "query" (.query t)).set "consequent"
      (.query t₁)
    both.Built ∧ both.hasUpdate = (t.hasUpdate || t₁.hasUpdate) := by
  have other : ∀ c : Combinator, Operation.when.kind ≠ c.kind := by
    intro c
    cases c <;> decide
  have hostQuery : HostKey "query" := .inl rfl
  have hostNext : HostKey "consequent" := .inr rfl
  obtain ⟨built, update⟩ := Tree.built_write other (show PlainFields [] by simp [PlainFields])
  have built_query := built.set_query other hostQuery built_t
  have update_query := Tree.hasUpdate_add_query built other hostQuery built_t
    fun field mem => absurd mem List.not_mem_nil
  have update_next := Tree.hasUpdate_add_query built_query other hostNext built_t₁ (by
    intro field mem
    obtain rfl := List.mem_singleton.1 mem
    show "query" ≠ "consequent"
    decide)
  refine ⟨built_query.set_query other hostNext built_t₁, update_next.trans ?_⟩
  have pure : isUpdateKind Operation.when.kind = false := by decide
  calc
    (Tree.hasUpdate _ || t₁.hasUpdate)
      = ((isUpdateKind Operation.when.kind || t.hasUpdate) || t₁.hasUpdate) := by
        rw [update_query, ← update]
        rfl
    _ = (t.hasUpdate || t₁.hasUpdate) := by rw [pure, Bool.false_or]

theorem when (h : k.Sound) {condition consequent : SubQuery} (sound : condition.Sound)
    (sound₁ : consequent.Sound) (ran : k.when condition consequent = .ok after) :
    k.Gains (condition.hasUpdate || consequent.hasUpdate) after := by
  obtain ⟨notBoth, t, t₁, found, found₁, built_after⟩ := when_eq_ok_iff.1 ran
  obtain ⟨built_t, update⟩ := sound _ _ t found
  obtain ⟨built_t₁, update₁⟩ := sound₁ _ _ t₁ found₁
  have other : ∀ c : Combinator, "When" ≠ c.kind := by
    intro c
    cases c <;> decide
  obtain ⟨free, gains_free, empty, written⟩ := h.write_eq
  obtain ⟨built, update_both⟩ := built_when built_t built_t₁
  have gains : k.Gains (condition.hasUpdate || consequent.hasUpdate) { k.write .when [] with
      focus := ((k.write .when []).focus.set "query" (.query t)).set "consequent"
        (.query t₁) } := by
    rw [written, ← update, ← update₁]
    refine gains_free.trans (gains_free.1.setFocus built ?_)
    rw [update_both, empty]
    rfl
  have kind : ((k.write .when []).focus.set "query" (.query t)).kind = some "When" := by
    rw [written]
    rfl
  rw [built_after]
  dsimp only
  split
  · next later =>
    have empty := SubQuery.eq_empty_of_isFollowing later found₁
    apply gains.enter kind other (.inr rfl)
    rw [empty]
    exact Tree.set_set _ _ _ _
  split
  · next sooner =>
    have empty := SubQuery.eq_empty_of_isFollowing sooner found
    have less : "consequent" < "query" := by decide
    apply gains.enter kind other (.inl rfl)
    rw [empty, Tree.set_comm less, Tree.set_set, ← Tree.set_comm less]
  · exact gains

end Sound

/-! ### Combinations -/

/-- The chained query of a combination is an empty one among its queries. -/
def Gapped (ts : List Tree) (gap : Option (Gap Tree)) : Prop :=
  ∀ g, gap = some g → ∃ before after, g = .among before after ∧ ts = before ++ .empty :: after

theorem Gapped.extend {ts : List Tree} {gap : Option (Gap Tree)} (h : Gapped ts gap)
    (given : List Tree) : Gapped (ts ++ given) (gap.map (Gap.extend given)) := by
  intro g same
  rw [Option.map_eq_some_iff] at same
  obtain ⟨g, old, rfl⟩ := same
  obtain ⟨before, last, rfl, rfl⟩ := h g old
  exact ⟨before, last ++ given, rfl, by simp⟩

/-- Adding sub-queries to a combination adds their updates. -/
theorem pushAll_gains (c : Combinator) : ∀ {qs : List SubQuery} {ts : List Tree}
    {gap gap₁ : Option (Gap Tree)} {after : Tree}, (∀ q ∈ qs, q.Sound) → (∀ t ∈ ts, t.Built) →
      Gapped ts gap →
      Tree.pushAll c (.node (some c.kind) [(c.key, .queries ts)]) gap qs = .ok (after, gap₁) →
      ∃ ts₁, after = .node (some c.kind) [(c.key, .queries ts₁)] ∧ (∀ t ∈ ts₁, t.Built) ∧
        ts₁.any Tree.hasUpdate = (ts.any Tree.hasUpdate || qs.any SubQuery.hasUpdate) ∧
          Gapped ts₁ gap₁
  | [], ts, _, _, _, _, built, gapped, ran => by
    cases ran
    exact ⟨ts, rfl, built, by simp, gapped⟩
  | q :: qs, ts, gap, gap₁, after, sound, built, gapped, ran => by
    have ⟨first, others⟩ := List.forall_mem_cons.1 sound
    rw [Tree.pushAll] at ran
    obtain ⟨t, found, ran⟩ := bind_eq_ok_iff.1 ran
    obtain ⟨built_t, update⟩ := first _ _ t found
    obtain ⟨parts, updates⟩ := built_t.combined c
    have grown : ∀ u ∈ ts ++ t.combined c, u.Built := by
      intro u mem
      rcases List.mem_append.1 mem with mem | mem
      · exact built u mem
      · exact parts u mem
    have gapped₁ : Gapped (ts ++ t.combined c)
        (if q.isFollowing then some (.among ts []) else gap.map (Gap.extend (t.combined c))) := by
      split
      · next following =>
        obtain rfl := SubQuery.eq_empty_of_isFollowing following found
        rintro g ⟨⟩
        exact ⟨ts, [], rfl, rfl⟩
      · exact gapped.extend _
    rw [Tree.append_combination, Tree.children_combination] at ran
    obtain ⟨ts₁, same, built₁, update₁, gapped₂⟩ := pushAll_gains c others grown gapped₁ ran
    refine ⟨ts₁, same, built₁, ?_, gapped₂⟩
    rw [update₁, List.any_append, updates, update, List.any_cons, Bool.or_assoc]

namespace Sound

theorem appendAll (h : k.Sound) {c : Combinator} {ts : List Tree} {qs : List SubQuery}
    (focus : k.focus = .node (some c.kind) [(c.key, .queries ts)]) (sound : ∀ q ∈ qs, q.Sound)
    (ran : k.appendAll c qs = .ok after) : k.Gains (qs.any SubQuery.hasUpdate) after := by
  have built : ∀ t ∈ ts, t.Built := Tree.Built.parts (focus ▸ h.focus)
  unfold Sketch.appendAll at ran
  rw [focus] at ran
  obtain ⟨⟨t, gap⟩, pushed, ran⟩ := bind_eq_ok_iff.1 ran
  obtain ⟨ts₁, rfl, built₁, update, gapped⟩ := pushAll_gains c sound built (by simp [Gapped]) pushed
  have gains : k.Gains (qs.any SubQuery.hasUpdate)
      { k with focus := .node (some c.kind) [(c.key, .queries ts₁)] } := by
    apply h.setFocus (.combination c built₁)
    rw [focus, Tree.hasUpdate_combination, Tree.hasUpdate_combination, update]
  cases gap with
  | none =>
    cases ran
    exact gains
  | some gap =>
    cases ran
    obtain ⟨before, last, rfl, rfl⟩ := gapped gap rfl
    have encloses := Encloses.among c (before ++ .empty :: last)
      (fun t mem => built₁ t (List.mem_append_left _ mem))
      (fun t mem => built₁ t (List.mem_append_right _ (List.mem_cons_of_mem _ mem)))
    exact gains.descend (Tree.set_combination c _ _) encloses

theorem beginAnd (h : k.Sound) : k.Gains false k.beginAnd ∧
    ∃ ts, k.beginAnd.focus =
      .node (some Combinator.and.kind) [(Combinator.and.key, .queries ts)] := by
  have settled : k.Gains false { k with frames := k.path, conjunction := none } :=
    ⟨⟨h.path, by simp, h.focus⟩, (Bool.or_false _).symm⟩
  have none : ∀ t ∈ ([] : List Tree), t.Built := by simp
  unfold Sketch.beginAnd
  by_cases taken : k.focus.kind.isSome
  · obtain ⟨ts, same, built, update⟩ := h.focus.conjoined
    rw [if_pos taken]
    refine ⟨settled.trans (settled.1.setFocus ?_ ?_), ts, same⟩
    · rw [same]
      exact .combination .and built
    · rw [update, Bool.or_false]
  · have empty : k.focus = .empty := h.focus.eq_empty (by simpa using taken)
    rw [if_neg taken]
    refine ⟨settled.trans (settled.1.setFocus (.combination .and none) ?_), [], rfl⟩
    simp only [empty]
    exact Tree.hasUpdate_combination .and []

theorem and (h : k.Sound) {qs : List SubQuery} (sound : ∀ q ∈ qs, q.Sound)
    (ran : k.and qs = .ok after) : k.Gains (qs.any SubQuery.hasUpdate) after := by
  obtain ⟨gains, ts, focus⟩ := h.beginAnd
  exact gains.trans (gains.1.appendAll focus sound ran)

theorem or (h : k.Sound) {qs : List SubQuery} (sound : ∀ q ∈ qs, q.Sound)
    (ran : k.or qs = .ok after) : k.Gains (qs.any SubQuery.hasUpdate) after := by
  obtain ⟨free, gains, empty, written⟩ := h.write_eq
  have none : ∀ t ∈ ([] : List Tree), t.Built := by simp
  have focus : k.beginOr = { free with
      focus := .node (some Combinator.or.kind) [(Combinator.or.key, .queries [])] } := by
    rw [Sketch.beginOr, written]
    rfl
  have begun : free.Gains false k.beginOr := by
    rw [focus]
    apply gains.1.setFocus (.combination .or none)
    rw [Tree.hasUpdate_combination .or, empty]
    rfl
  exact (gains.trans begun).trans (begun.1.appendAll (by rw [focus]) sound ran)

/-- **An edit adds its updates and nothing else.** -/
theorem perform (h : k.Sound) {e : Edit} (plain : e.Plain) (sound : ∀ q ∈ e.subQueries, q.Sound)
    (ran : k.perform e = .ok after) : k.Gains e.hasUpdate after := by
  cases e with
  | write op fields =>
    cases ran
    exact (h.write op fields plain.1 plain.2).1
  | host op fields q => exact h.host plain.1 plain.2 (sound q (by simp [Edit.subQueries])) ran
  | when condition consequent =>
    exact h.when (sound condition (by simp [Edit.subQueries]))
      (sound consequent (by simp [Edit.subQueries])) ran
  | and qs => exact h.and sound ran
  | or qs => exact h.or sound ran

end Sound

end Sketch

end GraphQuery
