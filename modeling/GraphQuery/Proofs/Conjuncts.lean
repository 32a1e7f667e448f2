import GraphQuery.Proofs.Apart
import GraphQuery.Proofs.NormalForm
import GraphQuery.Proofs.Preservation

/-!
# The conjuncts of a query

A query is a list of conjuncts: those of its queries, one after another, if it is a conjunction, and
itself otherwise. Wherever the cursor sits when a call that chains nothing is made, the call adds to
the end of that list what it writes on its own. So no conjunct is lost, doubled or moved: the
conjuncts of a query are those of its calls in order.

Key definitions: `Json.conjuncts`, `Tree.conjuncts`, `Sketch.Trailing`, `Sketch.Adds`,
`Step.Prebuilt`, `Builder.separately`.
Key theorems: `Tree.conjuncts_of_and`, `Sketch.Trailing.perform`, `Builder.conjuncts_follow`.
-/

namespace GraphQuery

namespace Json

mutual

/-- The conjuncts of a query in wire form. The empty query has none. -/
def conjuncts : Json → List Json
  | .obj fields =>
    if kindOf fields = some "And" then conjunctsListed fields
    else if fields.isEmpty then []
    else [.obj fields]
  | json => [json]

/-- The conjuncts of the queries that the fields of a conjunction list. -/
def conjunctsListed : List (String × Json) → List Json
  | [] => []
  | (key, value) :: rest => if key = "and" then conjunctsOfItems value else conjunctsListed rest

def conjunctsOfItems : Json → List Json
  | .arr items => conjunctsAll items
  | _ => []

def conjunctsAll : List Json → List Json
  | [] => []
  | item :: rest => conjuncts item ++ conjunctsAll rest

end

theorem conjunctsAll_eq_flatMap : ∀ items : List Json,
    conjunctsAll items = items.flatMap conjuncts
  | [] => rfl
  | item :: rest => by rw [conjunctsAll, conjunctsAll_eq_flatMap rest, List.flatMap_cons]

/-- A conjunction has the conjuncts of its queries. -/
theorem conjuncts_and (items : List Json) :
    conjuncts (.obj [("@type", .str "And"), ("and", .arr items)]) = items.flatMap conjuncts := by
  have kind : kindOf [("@type", Json.str "And"), ("and", .arr items)] = some "And" := rfl
  rw [conjuncts, if_pos kind, conjunctsListed, if_neg (by decide), conjunctsListed, if_pos rfl,
    conjunctsOfItems, conjunctsAll_eq_flatMap]

end Json

namespace Tree

/-- The conjuncts of what a query sends. -/
def conjuncts (t : Tree) : List Json := t.wire.conjuncts

@[simp] theorem conjuncts_empty : empty.conjuncts = [] := by
  rw [conjuncts, wire, wire?_empty]
  rfl

theorem conjuncts_combine (items : List Json) :
    Json.conjuncts ((combine .and items).getD (.obj [])) = items.flatMap Json.conjuncts := by
  match items with
  | [] => rfl
  | [item] => simp [combine]
  | first :: second :: rest => exact Json.conjuncts_and (first :: second :: rest)

/-- **A conjunction has the conjuncts of its queries**, those that send nothing included. -/
theorem conjuncts_of_and {t : Tree} (kind : t.kind = some "And") :
    t.conjuncts = (t.children "and").flatMap conjuncts := by
  have sent : ∀ ts : List Tree,
      (ts.filterMap wire?).flatMap Json.conjuncts = ts.flatMap conjuncts := by
    intro ts
    induction ts with
    | nil => rfl
    | cons t ts ih =>
      rw [List.flatMap_cons, ← ih, conjuncts, wire]
      cases written : t.wire? with
      | none =>
        rw [List.filterMap_cons_none written]
        rfl
      | some json =>
        rw [List.filterMap_cons_some written]
        rfl
  rw [conjuncts, wire, wire?_of_kind (c := .and) kind, conjuncts_combine, sent]
  rfl

/-- Adding queries to a conjunction adds their conjuncts at its end. -/
theorem conjuncts_append {t : Tree} (kind : t.kind = some "And") (given : List Tree) :
    (t.append "and" given).conjuncts = t.conjuncts ++ given.flatMap conjuncts := by
  have same : (t.append "and" given).kind = some "And" := kind
  rw [conjuncts_of_and same, conjuncts_of_and kind, children_append, List.flatMap_append]

/-- The queries that a query is a conjunction of have its conjuncts. -/
theorem flatMap_conjuncts_combined (t : Tree) :
    (t.combined .and).flatMap conjuncts = t.conjuncts := by
  by_cases kind : t.kind = some "And"
  · have parts : t.combined .and = t.children "and" := if_pos kind
    rw [parts, conjuncts_of_and kind]
  · have alone : t.combined .and = [t] := if_neg kind
    rw [alone, List.flatMap_singleton]

theorem conjuncts_singleton (t : Tree) :
    (node (some "And") [("and", .queries [t])]).conjuncts = t.conjuncts := by
  have listed : (node (some "And") [("and", .queries [t])]).children "and" = [t] :=
    children_combination .and [t]
  rw [conjuncts_of_and rfl, listed, List.flatMap_singleton]

theorem conjuncts_conjoined (t : Tree) : t.conjoined.conjuncts = t.conjuncts := by
  unfold conjoined
  by_cases kind : t.kind = some "And"
  · rw [if_pos kind]
  · rw [if_neg kind, conjuncts_singleton]

/-- Adding queries to a combination keeps its kind. -/
theorem kind_of_pushAll (c : Combinator) : ∀ {qs : List SubQuery} {t after : Tree}
    {gap gap₁ : Option (Gap Tree)}, t.pushAll c gap qs = .ok (after, gap₁) → after.kind = t.kind
  | [], _, _, _, _, ran => by
    cases ran
    rfl
  | q :: qs, t, after, gap, gap₁, ran => by
    rw [pushAll] at ran
    obtain ⟨given, -, ran⟩ := bind_eq_ok_iff.1 ran
    have rest := kind_of_pushAll c ran
    exact rest

/-- Adding prebuilt queries to a combination opens no gap. -/
theorem gap_of_pushAll_prebuilt (c : Combinator) : ∀ {qs : List SubQuery} {t after : Tree}
    {gap : Option (Gap Tree)}, (∀ q ∈ qs, q.isFollowing = false) →
      t.pushAll c none qs = .ok (after, gap) → gap = none
  | [], _, _, _, _, pushed => by
    cases pushed
    rfl
  | q :: qs, t, after, gap, prebuilt, pushed => by
    have ⟨first, others⟩ := List.forall_mem_cons.1 prebuilt
    rw [pushAll, first] at pushed
    obtain ⟨given, -, pushed⟩ := bind_eq_ok_iff.1 pushed
    exact gap_of_pushAll_prebuilt (t := t.append c.key (given.combined c)) c others pushed

/-- The same queries add the same conjuncts to any two conjunctions. -/
theorem pushAll_and : ∀ {qs : List SubQuery} {t u : Tree}, (∀ q ∈ qs, q.isFollowing = false) →
    t.kind = some "And" → u.kind = some "And" →
      Agrees (fun after alone => ∃ added, after.1.conjuncts = t.conjuncts ++ added ∧
          alone.1.conjuncts = u.conjuncts ++ added)
        (t.pushAll .and none qs) (u.pushAll .and none qs)
  | [], _, _, _, _, _ => .ok ⟨[], by simp⟩
  | q :: qs, t, u, prebuilt, kind, kind₁ => by
    have ⟨first, others⟩ := List.forall_mem_cons.1 prebuilt
    rw [pushAll, pushAll, first]
    cases q.tree Combinator.and.operation Combinator.and.key with
    | error e => exact .error e
    | ok given =>
      have rest := pushAll_and (t := t.append "and" (given.combined .and))
        (u := u.append "and" (given.combined .and)) others kind kind₁
      rw [conjuncts_append kind, conjuncts_append kind₁, flatMap_conjuncts_combined] at rest
      refine rest.imp ?_
      rintro after alone ⟨added, grown, grown₁⟩
      exact ⟨given.conjuncts ++ added, by rw [grown, List.append_assoc],
        by rw [grown₁, List.append_assoc]⟩

end Tree

namespace Sketch

/-- The focus is at the end: its conjuncts come last, and it is empty if nothing was written there.
-/
structure Trailing (k : Sketch) : Prop where
  frames : ∃ before, ∀ t : Tree, (t.within k.frames).conjuncts = before ++ t.conjuncts
  focus : k.focus.kind = none → k.focus = .empty

variable {k after alone : Sketch}

/-- The second sketch has the conjuncts of the first and then those of the third. -/
def Adds (k after alone : Sketch) : Prop :=
  after.Trailing ∧ after.tree.conjuncts = k.tree.conjuncts ++ alone.tree.conjuncts

theorem trailing_blank (vocabulary : Vocabulary) (expandsPaths : Bool) :
    (blank vocabulary expandsPaths).Trailing :=
  ⟨⟨[], fun _ => rfl⟩, fun _ => rfl⟩

namespace Trailing

/-- A query at the end of a conjunction comes after the others. -/
theorem path (h : k.Trailing) :
    ∃ before, ∀ t : Tree, (t.within k.path).conjuncts = before ++ t.conjuncts := by
  obtain ⟨before, around⟩ := h.frames
  unfold Sketch.path
  cases k.conjunction with
  | none => exact ⟨before, around⟩
  | some fields =>
    -- The focus is the last of a conjunction, whose other queries come before it.
    refine ⟨before ++ (Tree.node (some "And") fields).conjuncts, fun t => ?_⟩
    have inner : t.within (.conjunction fields :: k.frames) =
        ((Tree.node (some "And") fields).append "and" [t]).within k.frames := rfl
    rw [inner, around, Tree.conjuncts_append rfl, List.flatMap_singleton, List.append_assoc]

/-- What is put in the place of an empty focus adds its conjuncts. -/
theorem fill (h : k.Trailing) (empty : k.focus = .empty) {t : Tree} (taken : t.kind ≠ none)
    (vocabulary : Vocabulary) (expandsPaths : Bool) :
    k.Adds { k with focus := t } { blank vocabulary expandsPaths with focus := t } := by
  obtain ⟨before, around⟩ := h.path
  refine ⟨⟨h.frames, fun none => absurd none taken⟩, ?_⟩
  have tree : ({ k with focus := t } : Sketch).tree = t.within k.path := rfl
  have old : k.tree = Tree.empty.within k.path := by rw [Sketch.tree, empty]
  rw [tree, old, around, around, Tree.conjuncts_empty, List.append_nil]
  rfl

theorem conjoin (h : k.Trailing) :
    k.conjoin.Trailing ∧ k.conjoin.tree.conjuncts = k.tree.conjuncts := by
  obtain ⟨before, around⟩ := h.frames
  have trailing : k.conjoin.Trailing := ⟨h.frames, fun _ => rfl⟩
  refine ⟨trailing, ?_⟩
  have opened : (k.openConjunction.within k.frames).conjuncts = k.tree.conjuncts := by
    unfold Sketch.openConjunction Sketch.tree Sketch.path
    cases k.conjunction with
    | none => rw [around, around, Tree.conjuncts_conjoined]
    | some fields => rfl
  have tree : k.conjoin.tree = (k.openConjunction.append "and" [.empty]).within k.frames := by
    have kind := k.openConjunction_kind
    cases open_ : k.openConjunction with
    | node kind₁ fields =>
      rw [open_] at kind
      obtain rfl : kind₁ = some "And" := kind
      simp only [Sketch.tree, Sketch.path, Sketch.conjoin, open_]
      rfl
  rw [tree, around, Tree.conjuncts_append k.openConjunction_kind, List.flatMap_singleton,
    Tree.conjuncts_empty, List.append_nil, ← opened, around]

/-- There is an empty focus at the end for the next node. -/
theorem free (h : k.Trailing) : k.free.Trailing ∧ k.free.focus = .empty ∧
    k.free.tree.conjuncts = k.tree.conjuncts := by
  unfold Sketch.free
  by_cases taken : k.focus.kind.isSome
  · obtain ⟨trailing, same⟩ := h.conjoin
    rw [if_pos taken]
    exact ⟨trailing, rfl, same⟩
  · rw [if_neg taken]
    exact ⟨h, h.focus (by simpa using taken), rfl⟩

theorem write_eq (h : k.Trailing) (op : Operation) (fields : List (String × Json)) :
    k.write op fields = { k.free with focus := Tree.empty.write op.kind fields } := by
  rw [write_eq_free, h.free.2.1]

theorem focus_write (h : k.Trailing) (op : Operation) (fields : List (String × Json)) :
    (k.write op fields).focus = Tree.empty.write op.kind fields := by
  rw [h.write_eq]

variable (vocabulary : Vocabulary) (expandsPaths : Bool)

/-- Whatever becomes of the node that is written, its conjuncts are added. -/
theorem adds_focus (h : k.Trailing) (op : Operation) (fields : List (String × Json)) {t : Tree}
    (taken : t.kind ≠ none) : k.Adds { k.write op fields with focus := t }
      { (blank vocabulary expandsPaths).write op fields with focus := t } := by
  obtain ⟨trailing, empty, same⟩ := h.free
  have added := trailing.fill empty taken vocabulary expandsPaths
  rw [Adds, same] at added
  rw [h.write_eq]
  exact added

theorem write (h : k.Trailing) (op : Operation) (fields : List (String × Json)) :
    k.Adds (k.write op fields) ((blank vocabulary expandsPaths).write op fields) := by
  have taken : (Tree.empty.write op.kind fields).kind ≠ none := Option.some_ne_none _
  have added := h.adds_focus vocabulary expandsPaths op fields taken
  have alone := trailing_blank vocabulary expandsPaths
  rw [h.write_eq, alone.write_eq] at added ⊢
  exact added

theorem host (h : k.Trailing) (op : Operation) (fields : List (String × Json)) {q : SubQuery}
    (prebuilt : q.isFollowing = false) :
    Agrees k.Adds (k.host op fields q) ((blank vocabulary expandsPaths).host op fields q) := by
  have alone := (trailing_blank vocabulary expandsPaths).focus_write op fields
  unfold Sketch.host
  simp only [h.focus_write, alone, prebuilt]
  cases q.tree op "query" with
  | error e => exact .error e
  | ok t => exact .ok (h.adds_focus vocabulary expandsPaths op fields (Option.some_ne_none _))

theorem when (h : k.Trailing) {condition consequent : SubQuery}
    (prebuilt : condition.isFollowing = false) (prebuilt₁ : consequent.isFollowing = false) :
    Agrees k.Adds (k.when condition consequent)
      ((blank vocabulary expandsPaths).when condition consequent) := by
  have alone := (trailing_blank vocabulary expandsPaths).focus_write .when []
  unfold Sketch.when
  simp only [h.focus_write, alone, prebuilt, prebuilt₁]
  cases condition.tree .when "query" with
  | error e => exact .error e
  | ok query =>
    cases consequent.tree .when "consequent" with
    | error e => exact .error e
    | ok next => exact .ok (h.adds_focus vocabulary expandsPaths .when [] (Option.some_ne_none _))

theorem or (h : k.Trailing) {qs : List SubQuery} (prebuilt : ∀ q ∈ qs, q.isFollowing = false) :
    Agrees k.Adds (k.or qs) ((blank vocabulary expandsPaths).or qs) := by
  have alone := (trailing_blank vocabulary expandsPaths).focus_write .or []
  unfold Sketch.or Sketch.appendAll Sketch.beginOr
  simp only [h.focus_write, alone]
  cases pushed : ((Tree.empty.write Operation.or.kind []).set "or" (.queries [])).pushAll .or none
      qs with
  | error e => exact .error e
  | ok result =>
    obtain ⟨t, gap⟩ := result
    obtain rfl := Tree.gap_of_pushAll_prebuilt .or prebuilt pushed
    have taken : t.kind ≠ none := by
      rw [Tree.kind_of_pushAll .or pushed]
      exact Option.some_ne_none _
    exact .ok (h.adds_focus vocabulary expandsPaths .or [] taken)

/-- The conjunction that `and` goes on from has the conjuncts of the focus. -/
theorem beginAnd (h : k.Trailing) : k.beginAnd.focus.kind = some "And" ∧
    k.beginAnd.focus.conjuncts = k.focus.conjuncts := by
  unfold Sketch.beginAnd
  by_cases taken : k.focus.kind.isSome
  · simp only [taken, if_true]
    exact ⟨k.focus.conjoined_kind, k.focus.conjuncts_conjoined⟩
  · have empty : k.focus = .empty := h.focus (by simpa using taken)
    simp only [empty]
    exact ⟨rfl, rfl⟩

theorem and (h : k.Trailing) {qs : List SubQuery} (prebuilt : ∀ q ∈ qs, q.isFollowing = false) :
    Agrees k.Adds (k.and qs) ((blank vocabulary expandsPaths).and qs) := by
  obtain ⟨kind, same⟩ := h.beginAnd
  obtain ⟨kind₁, same₁⟩ := (trailing_blank vocabulary expandsPaths).beginAnd
  obtain ⟨before, around⟩ := h.path
  have pushed := Tree.pushAll_and prebuilt kind kind₁
  unfold Sketch.and Sketch.appendAll
  cases found : k.beginAnd.focus.pushAll .and none qs with
  | error e =>
    rw [found] at pushed
    rw [pushed.symm.eq_error]
    exact .error e
  | ok result =>
    rw [found] at pushed
    obtain ⟨⟨t₁, gap₁⟩, found₁, added, grown, grown₁⟩ := pushed.exists_right
    obtain ⟨t, gap⟩ := result
    have taken := Tree.kind_of_pushAll .and found
    obtain rfl := Tree.gap_of_pushAll_prebuilt .and prebuilt found
    obtain rfl := Tree.gap_of_pushAll_prebuilt .and prebuilt found₁
    rw [found₁]
    refine .ok ⟨⟨h.path, fun free => ?_⟩, ?_⟩
    · have free : t.kind = none := free
      rw [free, kind] at taken
      cases taken
    · have tree : ({ k.beginAnd with focus := t } : Sketch).tree = t.within k.path := rfl
      have alone : t₁.conjuncts = added := grown₁.trans (by rw [same₁]; rfl)
      have whole : k.tree.conjuncts = before ++ k.focus.conjuncts := around k.focus
      show Tree.conjuncts (Sketch.tree { k.beginAnd with focus := t }) = _ ++ t₁.conjuncts
      rw [tree, around, grown, same, whole, alone, List.append_assoc]

/-- **An edit that chains nothing adds at the end what it writes on its own**, or fails as it does
on its own. -/
theorem perform (h : k.Trailing) {e : Edit} (prebuilt : ∀ q ∈ e.subQueries, q.isFollowing = false) :
    Agrees k.Adds (k.perform e) ((blank vocabulary expandsPaths).perform e) := by
  cases e with
  | write op fields => exact .ok (h.write vocabulary expandsPaths op fields)
  | host op fields q =>
    exact h.host vocabulary expandsPaths op fields (prebuilt q (by simp [Edit.subQueries]))
  | when condition consequent =>
    exact h.when vocabulary expandsPaths (prebuilt condition (by simp [Edit.subQueries]))
      (prebuilt consequent (by simp [Edit.subQueries]))
  | and qs => exact h.and vocabulary expandsPaths prebuilt
  | or qs => exact h.or vocabulary expandsPaths prebuilt

end Trailing

end Sketch

/-- No sub-query is left to the operations that follow. -/
def Step.Prebuilt : Step → Prop
  | .call made => ∀ q ∈ made.subQueries, q.isFollowing = false
  | .extendVocabulary _ => True

/-- A call that chains nothing comes to an edit that chains nothing. -/
theorem Call.edit_prebuilt {vocabulary : Vocabulary} {expandsPaths : Bool} {call : Call} {e : Edit}
    (found : call.edit vocabulary expandsPaths = .ok e)
    (prebuilt : ∀ q ∈ call.subQueries, q.isFollowing = false) :
    ∀ q ∈ e.subQueries, q.isFollowing = false := by
  rcases Builder.single_or_replace call with single | ⟨subject, predicate, object, graph, rfl⟩
  · obtain ⟨-, same, -⟩ := Builder.edit_plain single found
    rwa [same]
  · obtain ⟨parts, -, rfl⟩ := map_eq_ok_iff.1 found
    simp [Edit.subQueries, SubQuery.isFollowing]

namespace Sketch

/-- The conjuncts so far, with the focus after them. -/
def Joins (k : Sketch) (conjuncts : List Json) : Prop :=
  k.Trailing ∧ k.tree.conjuncts = conjuncts

/-- A step that chains nothing adds at the end what it writes on its own. -/
theorem Joins.step {k : Sketch} {before : List Json} {step : Step} (h : k.Joins before)
    (prebuilt : step.Prebuilt) : k.AddsShare Joins Json.conjuncts before step := by
  obtain ⟨trailing, rfl⟩ := h
  cases step with
  | extendVocabulary given =>
    exact .ok ⟨⟨⟨trailing.frames, trailing.focus⟩, (List.append_nil _).symm⟩, rfl, rfl⟩
  | call call =>
    exact addsShare_call fun e found =>
      trailing.perform k.vocabulary k.expandsPaths (Call.edit_prebuilt found prebuilt)

end Sketch

namespace Builder

/-- What steps write when each is done on an empty query of its own, with the settings that those
before it leave. -/
def separately (b : Builder) : List Step → Except Error (List Json)
  | [] => .ok []
  | step :: steps => do
    let alone ← b.step step
    let others ← alone.cleared.separately steps
    return alone.wire.conjuncts ++ others

/-- It is the conjuncts of what the steps send when each is done apart. -/
theorem separately_eq_apart (steps : List Step) : ∀ b : Builder,
    b.separately steps = (b.apart steps).map (List.flatMap Json.conjuncts) := by
  induction steps with
  | nil => exact fun _ => rfl
  | cons step steps ih =>
    intro b
    rw [separately, apart]
    cases b.step step with
    | error e => rfl
    | ok alone =>
      simp only [bind, Except.bind, ih]
      cases alone.cleared.apart steps <;> rfl

theorem Realizes.conjuncts_eq {b : Builder} {k : Sketch} (h : b.Realizes k) :
    b.wire.conjuncts = k.tree.conjuncts := by
  rw [wire, h.tree_eq]
  rfl

/-- From any place at the end, steps that chain nothing add what they write separately. -/
theorem Realizes.conjuncts_of_follow {steps : List Step} {b : Builder} {k : Sketch}
    (h : b.Realizes k) (trailing : k.Trailing) (prebuilt : ∀ step ∈ steps, step.Prebuilt) :
    (b.follow steps).map (fun after => after.wire.conjuncts) =
      ((blank k.vocabulary k.expandsPaths).separately steps).map (k.tree.conjuncts ++ ·) := by
  have each := h.follow_apart (fun _ _ _ => Sketch.Joins.step) ⟨trailing, rfl⟩ prebuilt
  rw [separately_eq_apart]
  cases followed : b.follow steps with
  | error e =>
    rw [followed] at each
    rw [each.symm.eq_error]
    rfl
  | ok after =>
    rw [followed] at each
    obtain ⟨sent, apart, k₁, realizes, -, whole⟩ := each.exists_right
    rw [apart]
    exact congrArg Except.ok (realizes.conjuncts_eq.trans whole)

/-- **No conjunct is lost, doubled or moved.** The query that steps make of the empty one, none of
them with a chained sub-query, has the conjuncts that each step writes on its own, in order. If a
step fails, it fails on its own with the same error. -/
theorem conjuncts_follow (vocabulary : Vocabulary) (expandsPaths : Bool) {steps : List Step}
    (prebuilt : ∀ step ∈ steps, step.Prebuilt) :
    ((blank vocabulary expandsPaths).follow steps).map (fun after => after.wire.conjuncts) =
      (blank vocabulary expandsPaths).separately steps := by
  have start := realizes_blank vocabulary expandsPaths
  have settings : blank (Sketch.blank vocabulary expandsPaths).vocabulary
      (Sketch.blank vocabulary expandsPaths).expandsPaths = blank vocabulary expandsPaths := rfl
  rw [start.conjuncts_of_follow (Sketch.trailing_blank vocabulary expandsPaths) prebuilt, settings]
  cases (blank vocabulary expandsPaths).separately steps <;> rfl

/-- A node, a conjunction of it with the node before and a finished conjunction, then a negation. -/
theorem conjuncts_follow_and : ∃ steps : List Step, (∀ step ∈ steps, step.Prebuilt) ∧
    steps = [.call .truth, .call (.and [.truth, .json (.obj [("@type", .str "And"),
      ("and", .arr [.obj [("a", .null)], .obj [("b", .null)]])])]),
      .call (.about .not .truth)] ∧
    (blank .standard true).separately steps = .ok [.obj [("@type", .str "True")],
      .obj [("@type", .str "True")], .obj [("a", .null)], .obj [("b", .null)],
      .obj [("@type", .str "Not"), ("query", .obj [("@type", .str "True")])]] ∧
    ((blank .standard true).follow steps).map (fun after => after.wire.conjuncts) =
      (blank .standard true).separately steps := by
  refine ⟨_, ?_, rfl, ?_, conjuncts_follow .standard true ?_⟩
  · simp [Step.Prebuilt, Call.subQueries, SubQuery.isFollowing]
  · rfl
  · simp [Step.Prebuilt, Call.subQueries, SubQuery.isFollowing]

end Builder

end GraphQuery
