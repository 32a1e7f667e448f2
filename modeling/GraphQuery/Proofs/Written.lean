import GraphQuery.Proofs.Conjuncts

/-!
# What an edit writes

Every edit but a conjunction writes a query of its own in an empty place, whatever is around. If it
leaves a sub-query to the operations that follow, their place is an empty one in that query. A
conjunction writes a query like that only where nothing was written yet; elsewhere it takes what is
there as its first query.

Key definitions: `Written`, `Edit.written`, `Call.isConjunction`, `Sketch.put`.
Key theorems: `Sketch.perform_eq_put`, `Sketch.tree_put`, `Edit.next_of_prebuilt`.
-/

namespace GraphQuery

/-- A query that is written, and where in it the operations that follow go on, if they do. -/
structure Written where
  tree : Tree
  next : Option (String × Gap Tree)

namespace Edit

/-- Whether an edit makes a conjunction of what is there. -/
def isConjunction : Edit → Bool
  | and _ => true
  | _ => false

/-- A combination of sub-queries. -/
def writtenCombination (c : Combinator) (qs : List SubQuery) : Except Error Written := do
  let (tree, gap) ← Tree.pushAll c (.node (some c.kind) [(c.key, .queries [])]) none qs
  return ⟨tree, gap.map fun gap => (c.key, gap)⟩

/-- What an edit writes where there is nothing. -/
def written : Edit → Except Error Written
  | .write op fields => .ok ⟨Tree.empty.write op.kind fields, none⟩
  | .host op fields q => do
    let t ← q.tree op "query"
    return ⟨(Tree.empty.write op.kind fields).set "query" (.query t),
      if q.isFollowing then some ("query", .single) else none⟩
  | .when condition consequent =>
    if condition.isFollowing && consequent.isFollowing then
      .error (.parameter Operation.when.name "query" .bothOpen)
    else do
      let query ← condition.tree .when "query"
      let next ← consequent.tree .when "consequent"
      return ⟨((Tree.empty.write Operation.when.kind []).set "query" (.query query)).set
          "consequent" (.query next),
        if consequent.isFollowing then some ("consequent", .single)
        else if condition.isFollowing then some ("query", .single)
        else none⟩
  | .and qs => writtenCombination .and qs
  | .or qs => writtenCombination .or qs

end Edit

/-- Whether a call makes a conjunction of what is there. A replacement is one of two queries. -/
def Call.isConjunction : Call → Bool
  | and _ | replace _ _ _ _ => true
  | _ => false

/-- A call that makes no conjunction comes to an edit that makes none. -/
theorem Call.isConjunction_edit {vocabulary : Vocabulary} {expandsPaths : Bool} {call : Call}
    {e : Edit} (found : call.edit vocabulary expandsPaths = .ok e) :
    e.isConjunction = call.isConjunction := by
  cases call with
  | truth | and | or | when =>
    cases found
    rfl
  | path subject pattern object bound =>
    obtain ⟨steps, -, found⟩ := bind_eq_ok_iff.1 found
    obtain ⟨fields, -, found⟩ := bind_eq_ok_iff.1 found
    cases found
    rfl
  | _ =>
    obtain ⟨fields, -, rfl⟩ := map_eq_ok_iff.1 found
    rfl

namespace Sketch

/-- Puts a query at the focus and goes on where it says. -/
def put (k : Sketch) (w : Written) : Sketch :=
  let k := { k with focus := w.tree }
  w.next.elim k fun place => k.descend place.1 place.2

variable {k : Sketch}

theorem appendAll_eq_put (c : Combinator) (qs : List SubQuery) (k : Sketch) :
    appendAll c qs { k with focus := .node (some c.kind) [(c.key, .queries [])] } =
      (Edit.writtenCombination c qs).map k.put := by
  unfold appendAll Edit.writtenCombination
  cases Tree.pushAll c (.node (some c.kind) [(c.key, .queries [])]) none qs with
  | error e => rfl
  | ok result =>
    obtain ⟨t, gap⟩ := result
    cases gap <;> rfl

/-- **An edit writes in a free place what it writes anywhere.** -/
theorem perform_eq_put {e : Edit} (other : e.isConjunction = false)
    (empty : k.free.focus = .empty) : k.perform e = e.written.map k.free.put := by
  have wrote : ∀ op fields, k.write op fields =
      { k.free with focus := Tree.empty.write op.kind fields } := by
    intro op fields
    rw [write_eq_free, empty]
  cases e with
  | write op fields => exact congrArg Except.ok (wrote op fields)
  | host op fields q =>
    simp only [perform, host, Edit.written, wrote]
    cases q.tree op "query" with
    | error e => rfl
    | ok t =>
      refine congrArg Except.ok ?_
      by_cases following : q.isFollowing
      · simp only [following, if_true]
        rfl
      · simp only [following]
        rfl
  | when condition consequent =>
    simp only [perform, when, Edit.written, wrote]
    by_cases both : (condition.isFollowing && consequent.isFollowing) = true
    · simp only [both, if_true]
      rfl
    simp only [both]
    cases condition.tree .when "query" with
    | error e => rfl
    | ok query =>
      cases consequent.tree .when "consequent" with
      | error e => rfl
      | ok next =>
        refine congrArg Except.ok ?_
        by_cases later : consequent.isFollowing
        · simp only [later, if_true]
          rfl
        by_cases sooner : condition.isFollowing
        · simp only [later, sooner, if_true]
          rfl
        · simp only [later, sooner]
          rfl
  | and qs => cases other
  | or qs =>
    have begun : k.beginOr = { k.free with
        focus := .node (some Combinator.or.kind) [(Combinator.or.key, .queries [])] } := by
      rw [beginOr, wrote]
      rfl
    rw [perform, or, begun, appendAll_eq_put]
    rfl

/-- On the empty query every edit does. -/
theorem perform_blank (vocabulary : Vocabulary) (expandsPaths : Bool) (e : Edit) :
    (blank vocabulary expandsPaths).perform e =
      e.written.map (blank vocabulary expandsPaths).put := by
  by_cases conjunction : e.isConjunction
  · cases e with
    | and qs => exact appendAll_eq_put .and qs (blank vocabulary expandsPaths)
    | _ => cases conjunction
  · exact perform_eq_put (by simpa using conjunction) rfl

/-! ### Where the operations that follow go on -/

/-- What is put at the focus stands there, also when the focus moves into it. -/
theorem tree_put {w : Written}
    (open_ : ∀ key gap, w.next = some (key, gap) → w.tree.set key (gap.fill .empty) = w.tree) :
    (k.put w).tree = w.tree.within k.path := by
  unfold put
  cases next : w.next with
  | none => rfl
  | some place =>
    have entered : ({ k with focus := w.tree }.descend place.1 place.2).tree =
        (w.tree.set place.1 (place.2.fill .empty)).within k.path := rfl
    rw [Option.elim_some, entered, open_ place.1 place.2 next]

end Sketch

/-- The chained query of a combination is an empty one among its queries, which adding queries
leaves where it is. -/
theorem Tree.refill_of_pushAll (c : Combinator) : ∀ {qs : List SubQuery} {t after : Tree}
    {gap gap₁ : Option (Gap Tree)}, t.pushAll c gap qs = .ok (after, gap₁) →
      (∀ g, gap = some g → ∃ before rest, g = .among before rest ∧
        t.children c.key = before ++ .empty :: rest ∧ t.set c.key (g.fill .empty) = t) →
      ∀ g, gap₁ = some g → ∃ before rest, g = .among before rest ∧
        after.children c.key = before ++ .empty :: rest ∧
          after.set c.key (g.fill .empty) = after
  | [], _, _, _, _, ran, refill => by
    cases ran
    exact refill
  | q :: qs, t, after, gap, gap₁, ran, refill => by
    rw [pushAll] at ran
    obtain ⟨given, found, ran⟩ := bind_eq_ok_iff.1 ran
    refine refill_of_pushAll c ran ?_
    intro g same
    by_cases following : q.isFollowing
    · obtain rfl := SubQuery.eq_empty_of_isFollowing following found
      rw [if_pos following] at same
      cases same
      refine ⟨t.children c.key, [], rfl, ?_, ?_⟩
      · rw [children_append, combined_empty]
      · rw [combined_empty, append]
        exact set_set _ _ _ _
    · rw [if_neg following] at same
      obtain ⟨old, before_, rfl⟩ := Option.map_eq_some_iff.1 same
      obtain ⟨before, rest, rfl, listed, -⟩ := refill old before_
      refine ⟨before, rest ++ given.combined c, rfl, ?_, ?_⟩
      · rw [children_append, listed, List.append_assoc, List.cons_append]
      · rw [append, listed, List.append_assoc, List.cons_append]
        exact set_set _ _ _ _

namespace Edit

/-- What `when` writes if it succeeds. -/
theorem exists_of_written_when {condition consequent : SubQuery} {w : Written}
    (wrote : (Edit.when condition consequent).written = .ok w) : ∃ query next,
      condition.tree .when "query" = .ok query ∧ consequent.tree .when "consequent" = .ok next ∧
        w = ⟨((Tree.empty.write Operation.when.kind []).set "query" (.query query)).set
            "consequent" (.query next),
          if consequent.isFollowing then some ("consequent", .single)
          else if condition.isFollowing then some ("query", .single)
          else none⟩ := by
  by_cases both : (condition.isFollowing && consequent.isFollowing) = true
  · rw [written, if_pos both] at wrote
    cases wrote
  · rw [written, if_neg both] at wrote
    obtain ⟨query, found, wrote⟩ := bind_eq_ok_iff.1 wrote
    obtain ⟨next, found₁, built⟩ := bind_eq_ok_iff.1 wrote
    exact ⟨query, next, found, found₁, (Except.ok.inj built).symm⟩

theorem open_writtenCombination {c : Combinator} {qs : List SubQuery} {w : Written}
    (wrote : writtenCombination c qs = .ok w) {key : String} {gap : Gap Tree}
    (next : w.next = some (key, gap)) : w.tree.set key (gap.fill .empty) = w.tree := by
  obtain ⟨⟨t, gap₁⟩, pushed, built⟩ := bind_eq_ok_iff.1 wrote
  cases built
  obtain ⟨g, found, same⟩ := Option.map_eq_some_iff.1 next
  cases same
  obtain ⟨-, -, -, -, refill⟩ := Tree.refill_of_pushAll c pushed nofun gap found
  exact refill

/-- The place of the operations that follow is an empty one in what is written. -/
theorem open_written {e : Edit} {w : Written} (wrote : e.written = .ok w) {key : String}
    {gap : Gap Tree} (next : w.next = some (key, gap)) :
    w.tree.set key (gap.fill .empty) = w.tree := by
  cases e with
  | write op fields =>
    cases wrote
    cases next
  | host op fields q =>
    obtain ⟨t, found, built⟩ := bind_eq_ok_iff.1 wrote
    cases built
    by_cases following : q.isFollowing
    · obtain rfl := SubQuery.eq_empty_of_isFollowing following found
      rw [if_pos following] at next
      cases next
      exact Tree.set_set _ _ _ _
    · rw [if_neg following] at next
      cases next
  | when condition consequent =>
    obtain ⟨query, last, found, found₁, rfl⟩ := exists_of_written_when wrote
    have less : "consequent" < "query" := by decide
    by_cases later : consequent.isFollowing
    · obtain rfl := SubQuery.eq_empty_of_isFollowing later found₁
      rw [if_pos later] at next
      cases next
      exact Tree.set_set _ _ _ _
    by_cases sooner : condition.isFollowing
    · obtain rfl := SubQuery.eq_empty_of_isFollowing sooner found
      rw [if_neg later, if_pos sooner] at next
      cases next
      rw [Tree.set_comm less, Gap.fill, Tree.set_set]
    · rw [if_neg later, if_neg sooner] at next
      cases next
  | and qs => exact open_writtenCombination wrote next
  | or qs => exact open_writtenCombination wrote next

/-- What is written without chaining leaves no place open. -/
theorem next_of_prebuilt {e : Edit} {w : Written}
    (prebuilt : ∀ q ∈ e.subQueries, q.isFollowing = false) (wrote : e.written = .ok w) :
    w.next = none := by
  have combination : ∀ (c : Combinator) (qs : List SubQuery) (w : Written),
      (∀ q ∈ qs, q.isFollowing = false) → writtenCombination c qs = .ok w → w.next = none := by
    intro c qs w prebuilt wrote
    obtain ⟨⟨t, gap⟩, pushed, built⟩ := bind_eq_ok_iff.1 wrote
    obtain rfl := Tree.gap_of_pushAll_prebuilt c prebuilt pushed
    cases built
    rfl
  cases e with
  | write op fields =>
    cases wrote
    rfl
  | host op fields q =>
    have given : q.isFollowing = false := prebuilt q (by simp [subQueries])
    obtain ⟨t, -, built⟩ := bind_eq_ok_iff.1 wrote
    cases built
    simp [given]
  | when condition consequent =>
    have given : condition.isFollowing = false := prebuilt condition (by simp [subQueries])
    have given₁ : consequent.isFollowing = false := prebuilt consequent (by simp [subQueries])
    obtain ⟨query, last, -, -, rfl⟩ := exists_of_written_when wrote
    simp [given, given₁]
  | and qs => exact combination .and qs w prebuilt wrote
  | or qs => exact combination .or qs w prebuilt wrote

/-- What is written has a kind, which is no conjunction unless the edit is one. -/
theorem kind_written {e : Edit} {w : Written} (plain : e.Plain) (wrote : e.written = .ok w) :
    w.tree.kind ≠ none ∧ (e.isConjunction = false → w.tree.kind ≠ some "And") := by
  have combination : ∀ (c : Combinator) (qs : List SubQuery) (w : Written),
      writtenCombination c qs = .ok w → w.tree.kind = some c.kind := by
    intro c qs w wrote
    obtain ⟨⟨t, gap⟩, pushed, built⟩ := bind_eq_ok_iff.1 wrote
    cases built
    exact Tree.kind_of_pushAll c pushed
  cases e with
  | write op fields =>
    cases wrote
    exact ⟨nofun, fun _ same => plain.1 .and (Option.some.inj same)⟩
  | host op fields q =>
    obtain ⟨t, -, built⟩ := bind_eq_ok_iff.1 wrote
    cases built
    exact ⟨nofun, fun _ same => plain.1 .and (Option.some.inj same)⟩
  | when condition consequent =>
    obtain ⟨query, last, -, -, rfl⟩ := exists_of_written_when wrote
    have kind : "When" ≠ "And" := by decide
    exact ⟨nofun, fun _ same => kind (Option.some.inj same)⟩
  | and qs =>
    have kind := combination .and qs w wrote
    rw [kind]
    exact ⟨nofun, nofun⟩
  | or qs =>
    have kind := combination .or qs w wrote
    have other : some "Or" ≠ some "And" := by decide
    rw [kind]
    exact ⟨nofun, fun _ => other⟩

end Edit

end GraphQuery
