import GraphQuery.Proofs.NormalForm
import GraphQuery.Proofs.Written

/-!
# A conjunction of nothing in a chain

Asking for a conjunction of nothing makes the query at the cursor a conjunction, which the
operations that follow go on with. The conjuncts of the query stay those that they would be without
it. But where the query at the cursor is one of several in a conjunction already, the new one is
nested in it, so that what follows is not listed with the others.

Key definitions: `Sketch.Inline`, `Builder.earlier`, `Builder.Nests`.
Key theorems: `Tree.combine_nested_iff`, `Sketch.Inline.place`, `Builder.and_nil_run`.
-/

namespace GraphQuery

namespace Tree

/-- The conjunction with some fields and a query more, which comes last. -/
def lastOf (fields : Dictionary (Branch Tree)) (t : Tree) : Tree :=
  .node (some "And") ((Frame.conjunction fields).filled t)

theorem children_lastOf (fields : Dictionary (Branch Tree)) (t : Tree) :
    (t.lastOf fields).children "and" = Branch.children "and" fields ++ [t] := by
  simp [lastOf, children, Tree.fields, Frame.filled, Frame.conjunction, Gap.fill, Branch.children]

/-- What a query in frames sends depends on what it sends itself, and on nothing else of it. -/
theorem wire?_within_congr : ∀ (frames : List (Frame Tree)) {t u : Tree}, t.wire? = u.wire? →
    (t.within frames).wire? = (u.within frames).wire?
  | [], _, _, same => same
  | frame :: frames, t, u, same => by
    have wired : ∀ t : Tree, wireFields (frame.filled t) =
        (frame.map wire?).filled t.wire? := by
      intro t
      rw [← Frame.mapValues_filled, wireFields_eq_mapValues]
      exact Dictionary.mapValues_congr fun entry _ => wireBranch_eq_map entry.2
    have inner : (node frame.kind (frame.filled t)).wire? =
        (node frame.kind (frame.filled u)).wire? := by
      rw [wire?, wire?, wired, wired, same]
    exact wire?_within_congr frames inner

theorem filterMap_wire?_singleton (t : Tree) : [t].filterMap wire? = t.wire?.toList := by
  rw [List.filterMap_cons]
  cases t.wire? <;> rfl

/-- A query at the end of a conjunction is sent after the others, if it sends anything. -/
theorem wire?_lastOf (fields : Dictionary (Branch Tree)) (t : Tree) : (t.lastOf fields).wire? =
    combine .and ((Branch.children "and" fields).filterMap wire? ++ t.wire?.toList) := by
  rw [wire?_of_kind (c := .and) rfl, ← filterMap_wire?_singleton, ← List.filterMap_append,
    ← children_lastOf]
  rfl

theorem combine_eq_none_iff (c : Combinator) (items : List Json) :
    combine c items = none ↔ items = [] := by
  match items with
  | [] | [_] | _ :: _ :: _ => simp [combine]

/-- The last of several queries can be told from what they are sent as. -/
theorem combine_concat_inj {c : Combinator} {before : List Json} {v w : Json}
    (same : combine c (before ++ [v]) = combine c (before ++ [w])) : v = w := by
  match before with
  | [] => exact Option.some.inj same
  | first :: rest =>
    rw [combine_of_two_le c (by simp), combine_of_two_le c (by simp)] at same
    simpa using same

/-- Several queries one after another are sent as one conjunction, and not as one inside another.
-/
theorem combine_nested_iff (before : List Json) (x y : Option Json) :
    combine .and (before ++ (combine .and (x.toList ++ y.toList)).toList) =
        combine .and (before ++ x.toList ++ y.toList) ↔ before = [] ∨ x = none ∨ y = none := by
  cases x with
  | none => cases y <;> simp [combine]
  | some x =>
    cases y with
    | none => simp [combine]
    | some y =>
      cases before with
      | nil => simp [combine]
      | cons first rest =>
        -- Both are conjunctions, of different numbers of queries.
        have nested : combine .and [x, y] = some (.obj [("@type", .str Combinator.and.kind),
          (Combinator.and.key, .arr [x, y])]) := rfl
        simp only [Option.toList_some, List.cons_append, List.nil_append, nested]
        rw [combine_of_two_le .and (by simp), combine_of_two_le .and (by simp)]
        simp [Combinator.key]

/-- The frames are conjunctions whose last query is missing. -/
def Inline (frames : List (Frame Tree)) : Prop :=
  ∀ frame ∈ frames, ∃ fields, frame = .conjunction fields

/-- What two queries send can be told apart inside conjunctions. -/
theorem wire?_within_inj : ∀ {frames : List (Frame Tree)}, Inline frames → ∀ {t u : Tree},
    t.wire? ≠ none → u.wire? ≠ none → (t.within frames).wire? = (u.within frames).wire? →
      t.wire? = u.wire?
  | [], _, _, _, _, _, same => same
  | frame :: frames, inline, t, u, sent, sent₁, same => by
    obtain ⟨⟨fields, rfl⟩, outer⟩ := List.forall_mem_cons.1 inline
    obtain ⟨v, sent⟩ := Option.ne_none_iff_exists'.1 sent
    obtain ⟨w, sent₁⟩ := Option.ne_none_iff_exists'.1 sent₁
    have inner := wire?_within_inj outer (t := t.lastOf fields) (u := u.lastOf fields)
      (by simp [wire?_lastOf, sent, combine_eq_none_iff])
      (by simp [wire?_lastOf, sent₁, combine_eq_none_iff]) same
    rw [wire?_lastOf, wire?_lastOf, sent, sent₁] at inner
    rw [sent, sent₁, combine_concat_inj inner]

/-- What a query at the end of a conjunction adds to its conjuncts. -/
theorem conjuncts_lastOf (fields : Dictionary (Branch Tree)) (t : Tree) :
    (t.lastOf fields).conjuncts =
      (Branch.children "and" fields).flatMap conjuncts ++ t.conjuncts := by
  rw [conjuncts_of_and rfl, children_lastOf, List.flatMap_append, List.flatMap_singleton]

/-- Inside conjunctions, the conjuncts of the whole depend on those of the query only. -/
theorem conjuncts_within_congr : ∀ {frames : List (Frame Tree)}, Inline frames → ∀ {t u : Tree},
    t.conjuncts = u.conjuncts → (t.within frames).conjuncts = (u.within frames).conjuncts
  | [], _, _, _, same => same
  | frame :: frames, inline, t, u, same => by
    obtain ⟨⟨fields, rfl⟩, outer⟩ := List.forall_mem_cons.1 inline
    have inner : (t.lastOf fields).conjuncts = (u.lastOf fields).conjuncts := by
      rw [conjuncts_lastOf, conjuncts_lastOf, same]
    exact conjuncts_within_congr outer inner

end Tree

namespace Sketch

/-- The focus is the last query of conjunctions only. It is empty if nothing was written there, and
no conjunction in the conjunction at hand. -/
structure Inline (k : Sketch) : Prop where
  frames : Tree.Inline k.frames
  focus : k.focus.kind = none → k.focus = .empty
  apart : k.conjunction ≠ none → k.focus.kind ≠ some "And"

/-- What the queries before the focus send, in the conjunction at hand. -/
def earlier (k : Sketch) : List Json :=
  k.conjunction.elim [] fun fields => (Branch.children "and" fields).filterMap Tree.wire?

/-- The next call is nested with the focus by an empty conjunction: it asks for no conjunction, and
something is sent before the focus in the conjunction at hand, by the focus and by the call. -/
structure Nests (k : Sketch) (call : Call) : Prop where
  other : call.isConjunction = false
  before : k.earlier ≠ []
  here : k.focus.wire? ≠ none
  after : ∀ alone, (blank k.vocabulary k.expandsPaths).run call = .ok alone →
    alone.tree.wire? ≠ none

variable {k after : Sketch}

theorem inline_blank (vocabulary : Vocabulary) (expandsPaths : Bool) :
    (blank vocabulary expandsPaths).Inline :=
  ⟨nofun, fun _ => rfl, fun open_ => absurd rfl open_⟩

theorem beginAnd_kind (k : Sketch) : k.beginAnd.focus.kind = some "And" := by
  unfold beginAnd
  by_cases taken : k.focus.kind.isSome
  · simp only [if_pos taken]
    exact k.focus.conjoined_kind
  · simp only [if_neg taken]
    rfl

/-- A conjunction at the focus is left as it is. -/
theorem beginAnd_eq_self (kind : k.focus.kind = some "And") (closed : k.conjunction = none) :
    k.beginAnd = k := by
  have conjoined : k.focus.conjoined = k.focus := if_pos kind
  obtain ⟨frames, conjunction, focus, vocabulary, expandsPaths⟩ := k
  obtain rfl : conjunction = none := closed
  have taken : focus.kind.isSome := by
    rw [show focus.kind = some "And" from kind]
    rfl
  simp only [beginAnd, taken, if_true, conjoined]
  rfl

/-- An edit that makes a conjunction does what it would do without an empty one before it. -/
theorem perform_beginAnd (k : Sketch) {e : Edit} (conjunction : e.isConjunction) :
    k.beginAnd.perform e = k.perform e := by
  cases e with
  | and qs => exact congrArg (appendAll .and qs) (beginAnd_eq_self k.beginAnd_kind rfl)
  | _ => cases conjunction

/-- Any other goes on after the empty one. -/
theorem free_beginAnd (k : Sketch) : k.beginAnd.free.focus = .empty := by
  have taken : k.beginAnd.focus.kind.isSome := by
    rw [k.beginAnd_kind]
    rfl
  rw [free, if_pos taken]
  rfl

namespace Inline

theorem path (h : k.Inline) : Tree.Inline k.path := by
  unfold Sketch.path
  cases k.conjunction with
  | none => exact h.frames
  | some fields => exact List.forall_mem_cons.2 ⟨⟨fields, rfl⟩, h.frames⟩

theorem free (h : k.Inline) : k.free.focus = .empty ∧ k.free.frames = k.frames := by
  unfold Sketch.free
  by_cases taken : k.focus.kind.isSome
  · rw [if_pos taken]
    exact ⟨rfl, rfl⟩
  · rw [if_neg taken]
    exact ⟨h.focus (by simpa using taken), rfl⟩

/-- An edit that chains nothing stays in conjunctions. -/
theorem perform (h : k.Inline) {e : Edit} (plain : e.Plain)
    (prebuilt : ∀ q ∈ e.subQueries, q.isFollowing = false) (ran : k.perform e = .ok after) :
    after.Inline := by
  obtain ⟨empty, frames⟩ := h.free
  by_cases conjunction : e.isConjunction
  · cases e with
    | and qs =>
      obtain ⟨⟨t, gap⟩, pushed, built⟩ := bind_eq_ok_iff.1 ran
      have kind := Tree.kind_of_pushAll .and pushed
      obtain rfl := Tree.gap_of_pushAll_prebuilt .and prebuilt pushed
      cases built
      refine ⟨h.path, fun free => ?_, fun open_ => absurd rfl open_⟩
      have free : t.kind = none := free
      rw [free, beginAnd_kind] at kind
      cases kind
    | _ => cases conjunction
  · have other : e.isConjunction = false := by simpa using conjunction
    rw [perform_eq_put other empty] at ran
    obtain ⟨w, wrote, rfl⟩ := map_eq_ok_iff.1 ran
    obtain ⟨taken, kind⟩ := Edit.kind_written plain wrote
    have put : k.free.put w = { k.free with focus := w.tree } := by
      rw [Sketch.put, Edit.next_of_prebuilt prebuilt wrote]
      rfl
    rw [put]
    exact ⟨frames ▸ h.frames, fun free => absurd free taken, fun _ => kind other⟩

/-- A step that chains nothing stays in conjunctions. -/
theorem step (h : k.Inline) {step : Step} (prebuilt : step.Prebuilt)
    (ran : k.step step = .ok after) : after.Inline := by
  cases step with
  | extendVocabulary given =>
    cases ran
    exact ⟨h.frames, h.focus, h.apart⟩
  | call call =>
    obtain ⟨e, found, ran⟩ := bind_eq_ok_iff.1 ran
    have prebuilt := Call.edit_prebuilt found prebuilt
    rcases Builder.single_or_replace call with single | ⟨subject, predicate, object, graph, rfl⟩
    · exact h.perform (Builder.edit_plain single found).1 prebuilt ran
    · obtain ⟨parts, -, rfl⟩ := map_eq_ok_iff.1 found
      exact h.perform (e := .and _) trivial prebuilt ran

theorem follow : ∀ {steps : List Step} {k after : Sketch}, k.Inline →
    (∀ step ∈ steps, step.Prebuilt) → k.follow steps = .ok after → after.Inline
  | [], _, _, h, _, ran => by
    cases ran
    exact h
  | step :: steps, k, after, h, prebuilt, ran => by
    have ⟨first, others⟩ := List.forall_mem_cons.1 prebuilt
    obtain ⟨next, stepped, ran⟩ := bind_eq_ok_iff.1 ran
    exact follow (h.step first stepped) others ran

/-- **Where the operations that follow go on**, with and without an empty conjunction before them.
-/
theorem place_cases (h : k.Inline) (t : Tree) :
    (k.focus = .empty ∧ t.within k.free.path = t.within k.path ∧
      t.within k.beginAnd.free.path = (t.lastOf [("and", .queries [])]).within k.path) ∨
    (k.conjunction = none ∧ t.within k.beginAnd.free.path = t.within k.free.path) ∨
    ∃ fields, k.conjunction = some fields ∧
      t.within k.free.path = (t.lastOf (k.focus.lastOf fields).fields).within k.frames ∧
      t.within k.beginAnd.free.path =
        ((t.lastOf [("and", .queries [k.focus])]).lastOf fields).within k.frames := by
  obtain ⟨frames, conjunction, focus, vocabulary, expandsPaths⟩ := k
  by_cases taken : focus.kind.isSome
  · cases conjunction with
    | none =>
      refine .inr (.inl ⟨rfl, ?_⟩)
      have taken₁ : focus.conjoined.kind.isSome := by
        rw [Tree.conjoined_kind]
        rfl
      have again : focus.conjoined.conjoined = focus.conjoined := if_pos focus.conjoined_kind
      simp only [Sketch.free, beginAnd, taken, taken₁, if_true, conjoin, openConjunction, again]
      rfl
    | some fields =>
      have other : focus.kind ≠ some "And" := h.apart (by simp)
      have conjoined : focus.conjoined = .node (some "And") [("and", .queries [focus])] :=
        if_neg other
      refine .inr (.inr ⟨fields, rfl, ?_, ?_⟩)
      · simp only [Sketch.free, taken, if_true]
        rfl
      · simp only [Sketch.free, beginAnd, taken, if_true, conjoined]
        rfl
  · obtain rfl : focus = .empty := h.focus (by simpa using taken)
    exact .inl ⟨rfl, rfl, rfl⟩

/-- **An empty conjunction nests what follows** if something is sent before it, at it and after it.
-/
theorem wire?_place (h : k.Inline) (t : Tree) :
    (t.within k.beginAnd.free.path).wire? = (t.within k.free.path).wire? ↔
      k.earlier = [] ∨ k.focus.wire? = none ∨ t.wire? = none := by
  rcases h.place_cases t with ⟨empty, direct, opened⟩ | ⟨closed, same⟩ |
    ⟨fields, open_, direct, opened⟩
  · -- Nothing was written yet, so the conjunction has one query.
    have alone : (t.lastOf [("and", .queries [])]).wire? = t.wire? := by
      have listed : Branch.children "and" [("and", .queries ([] : List Tree))] = [] :=
        Tree.children_combination .and []
      rw [Tree.wire?_lastOf, listed]
      cases t.wire? <;> rfl
    rw [direct, opened, empty]
    exact iff_of_true (Tree.wire?_within_congr k.path alone) (.inr (.inl Tree.wire?_empty))
  · rw [same, earlier, closed]
    exact iff_of_true rfl (.inl rfl)
  · have before : k.earlier = (Branch.children "and" fields).filterMap Tree.wire? := by
      rw [earlier, open_]
      rfl
    have flat : (t.lastOf (k.focus.lastOf fields).fields).wire? =
        Tree.combine .and (k.earlier ++ k.focus.wire?.toList ++ t.wire?.toList) := by
      have listed : Branch.children "and" (k.focus.lastOf fields).fields =
          Branch.children "and" fields ++ [k.focus] := k.focus.children_lastOf fields
      rw [Tree.wire?_lastOf, listed, List.filterMap_append, ← before,
        Tree.filterMap_wire?_singleton]
    have nested : ((t.lastOf [("and", .queries [k.focus])]).lastOf fields).wire? = Tree.combine .and
        (k.earlier ++ (Tree.combine .and (k.focus.wire?.toList ++ t.wire?.toList)).toList) := by
      have listed : Branch.children "and" [("and", .queries [k.focus])] = [k.focus] :=
        Tree.children_combination .and [k.focus]
      rw [Tree.wire?_lastOf, Tree.wire?_lastOf, listed, ← before, Tree.filterMap_wire?_singleton]
    rw [direct, opened, ← Tree.combine_nested_iff, ← nested, ← flat]
    refine ⟨fun same => ?_, Tree.wire?_within_congr k.frames⟩
    by_cases none : k.earlier = []
    · rw [flat, nested, Tree.combine_nested_iff]
      exact .inl none
    · exact Tree.wire?_within_inj h.frames (by simp [nested, Tree.combine_eq_none_iff, none])
        (by simp [flat, Tree.combine_eq_none_iff, none]) same

/-- The conjuncts of the whole are the same. -/
theorem conjuncts_place (h : k.Inline) (t : Tree) :
    (t.within k.beginAnd.free.path).conjuncts = (t.within k.free.path).conjuncts := by
  rcases h.place_cases t with ⟨-, direct, opened⟩ | ⟨-, same⟩ | ⟨fields, -, direct, opened⟩
  · have listed : Branch.children "and" [("and", .queries ([] : List Tree))] = [] :=
      Tree.children_combination .and []
    rw [direct, opened]
    refine Tree.conjuncts_within_congr h.path ?_
    rw [Tree.conjuncts_lastOf, listed]
    rfl
  · rw [same]
  · have listed : Branch.children "and" [("and", .queries [k.focus])] = [k.focus] :=
      Tree.children_combination .and [k.focus]
    have listed₁ : Branch.children "and" (k.focus.lastOf fields).fields =
        Branch.children "and" fields ++ [k.focus] := k.focus.children_lastOf fields
    rw [direct, opened]
    refine Tree.conjuncts_within_congr h.frames ?_
    rw [Tree.conjuncts_lastOf, Tree.conjuncts_lastOf, Tree.conjuncts_lastOf, listed, listed₁,
      List.flatMap_append, List.flatMap_singleton, List.append_assoc]

/-- **What an empty conjunction does to the next call.** The call fails exactly if it would fail
without it. The query then has the conjuncts that it would have without it, and it is sent the same
unless the call is nested. -/
theorem run_beginAnd (h : k.Inline) (call : Call) :
    Agrees (fun after direct => after.tree.conjuncts = direct.tree.conjuncts ∧
        (after.tree.wire = direct.tree.wire ↔ ¬ k.Nests call))
      (k.beginAnd.run call) (k.run call) := by
  have settings : k.beginAnd.run call =
      (call.edit k.vocabulary k.expandsPaths).bind k.beginAnd.perform := rfl
  rw [settings, Sketch.run]
  cases found : call.edit k.vocabulary k.expandsPaths with
  | error e => exact .error e
  | ok e =>
    have kind := Call.isConjunction_edit found
    simp only [Except.bind]
    by_cases conjunction : e.isConjunction
    · -- The call goes on with the conjunction that it would have made itself.
      have asked : ¬ k.Nests call := fun nests => by
        rw [conjunction, nests.other] at kind
        cases kind
      rw [k.perform_beginAnd conjunction]
      cases k.perform e with
      | error e => exact .error e
      | ok after => exact .ok ⟨rfl, iff_of_true rfl asked⟩
    · have other : e.isConjunction = false := by simpa using conjunction
      rw [perform_eq_put other h.free.1, perform_eq_put other k.free_beginAnd]
      cases wrote : e.written with
      | error e => exact .error e
      | ok w =>
        have open_ : ∀ key gap, w.next = some (key, gap) →
            w.tree.set key (gap.fill .empty) = w.tree := fun _ _ => Edit.open_written wrote
        obtain ⟨alone, ran, tree⟩ : ∃ alone, (blank k.vocabulary k.expandsPaths).run call =
            .ok alone ∧ alone.tree = w.tree := by
          refine ⟨(blank k.vocabulary k.expandsPaths).put w, bind_eq_ok_iff.2 ⟨e, found, ?_⟩,
            tree_put open_⟩
          rw [perform_blank, wrote]
          rfl
        refine .ok ⟨?_, ?_⟩
        · rw [tree_put open_, tree_put open_, h.conjuncts_place]
        · rw [tree_put open_, tree_put open_, Tree.wire_inj, h.wire?_place]
          constructor
          · rintro (before | here | after) nests
            · exact nests.before before
            · exact nests.here here
            · exact nests.after alone ran (by rw [tree, after])
          · intro flat
            by_contra apart
            rw [not_or, not_or] at apart
            obtain ⟨before, here, after⟩ := apart
            refine flat ⟨kind.symm.trans other, before, here, fun alone₁ ran₁ => ?_⟩
            obtain rfl := Except.ok.inj (ran.symm.trans ran₁)
            rwa [tree]

end Inline

end Sketch

namespace Builder

variable {b : Builder} {k : Sketch} {rings : List Ring} {p : Plot}

/-- The query at the cursor is the focus. -/
theorem Draws.tree_cursor (d : b.Draws k rings p) : b.store.tree b.cursor = k.focus := by
  have held := d.shows_.held.mono (Multiset.le_add_left p.cells _)
  have distinct := Multiset.nodup_of_le
    (Multiset.map_le_map (f := Prod.fst) (Multiset.le_add_left p.cells _)) d.shows_.distinct
  rw [← d.cursor_eq, Store.tree_of_holds held distinct, d.focus_eq]

theorem Realizes.tree_cursor (h : b.Realizes k) : b.store.tree b.cursor = k.focus := by
  obtain ⟨rings, p, d⟩ := h
  exact d.tree_cursor

/-- What the queries before the one at the cursor send, in the conjunction at hand. -/
def earlier (b : Builder) : List Json :=
  b.conjunction.elim [] fun conjunction =>
    ((b.store.tree conjunction).children "and").dropLast.filterMap Tree.wire?

theorem Draws.earlier_eq (d : b.Draws k rings p) : b.earlier = k.earlier := by
  unfold earlier Sketch.earlier
  cases open_ : k.conjunction with
  | none =>
    have closed : b.conjunction = none := by rw [d.conjunction_eq, open_]; rfl
    rw [closed]
    rfl
  | some fields =>
    obtain ⟨ring, rest, conjunction, -, outer⟩ := d.leave open_
    have tree : b.store.tree ring.handle = k.focus.lastOf fields := outer.tree_cursor
    rw [conjunction, Option.elim_some, tree, Tree.children_lastOf, List.dropLast_concat]
    rfl

/-- After an empty conjunction, a call is nested with the query at the cursor: it asks for no
conjunction, and something is sent before the query at the cursor in the conjunction at hand, by the
query itself and by the call. -/
structure Nests (b : Builder) (call : Call) : Prop where
  other : call.isConjunction = false
  before : b.earlier ≠ []
  here : (b.store.tree b.cursor).wire ≠ .obj []
  after : ∀ alone, b.cleared.run call = .ok alone → alone.wire ≠ .obj []

theorem Realizes.wire_eq (h : b.Realizes k) : b.wire = k.tree.wire := by
  rw [wire, h.tree_eq]

theorem Realizes.nests_iff (h : b.Realizes k) (call : Call) : b.Nests call ↔ k.Nests call := by
  obtain ⟨rings, p, d⟩ := h
  have alone := (realizes_blank k.vocabulary k.expandsPaths).run call
  have cleared : b.cleared = blank k.vocabulary k.expandsPaths := by
    rw [cleared_eq_blank, d.vocabulary_eq, d.expandsPaths_eq]
  constructor
  · intro nests
    refine ⟨nests.other, d.earlier_eq ▸ nests.before, ?_, fun j ran => ?_⟩
    · rw [← d.tree_cursor, ne_eq, ← Tree.wire_eq_empty_iff]
      exact nests.here
    · obtain ⟨single, ran₁, h₁⟩ := (ran ▸ alone).exists_left
      rw [ne_eq, ← Tree.wire_eq_empty_iff, ← h₁.wire_eq]
      exact nests.after single (cleared ▸ ran₁)
  · intro nests
    refine ⟨nests.other, d.earlier_eq.symm ▸ nests.before, ?_, fun single ran => ?_⟩
    · rw [d.tree_cursor, ne_eq, Tree.wire_eq_empty_iff]
      exact nests.here
    · rw [cleared] at ran
      obtain ⟨j, ran₁, h₁⟩ := (ran ▸ alone).exists_right
      rw [h₁.wire_eq, ne_eq, Tree.wire_eq_empty_iff]
      exact nests.after j ran₁

/-- **What an empty conjunction does in a chain.** After steps that chain nothing, asking for a
conjunction of nothing succeeds. A call after it fails exactly if it would fail without it, with the
same error. The query then has the conjuncts that it would have without it, and it is sent the same
unless the call is nested. -/
theorem and_nil_run (vocabulary : Vocabulary) (expandsPaths : Bool) {steps : List Step}
    (prebuilt : ∀ step ∈ steps, step.Prebuilt)
    (reached : (blank vocabulary expandsPaths).follow steps = .ok b) (call : Call) :
    ∃ opened, b.and [] = .ok opened ∧
      Agrees (fun after direct => after.wire.conjuncts = direct.wire.conjuncts ∧
          (after.wire = direct.wire ↔ ¬ b.Nests call))
        (opened.run call) (b.run call) := by
  obtain ⟨k, followed, h⟩ :=
    (reached ▸ (realizes_blank vocabulary expandsPaths).follow steps).exists_right
  have inline := (Sketch.inline_blank vocabulary expandsPaths).follow prebuilt followed
  obtain ⟨opened, ran, h₁⟩ : ∃ opened, b.and [] = .ok opened ∧ opened.Realizes k.beginAnd :=
    (h.run (.and [])).exists_left
  have agrees := (h₁.run call).trans ((inline.run_beginAnd call).trans (h.run call).symm)
  refine ⟨opened, ran, agrees.imp ?_⟩
  rintro after direct ⟨j, h₂, j₁, ⟨conjuncts, same⟩, h₃⟩
  rw [h₂.wire_eq, h₃.wire_eq, h.nests_iff]
  exact ⟨conjuncts, same⟩

/-- A negation of nothing at the cursor: nothing is nested with it. -/
theorem and_nil_run_silent : ∃ steps b opened, (∀ step ∈ steps, step.Prebuilt) ∧
    steps = [.call .truth, .call .truth, .call (.about .not (.query (ofVocabulary .standard)))] ∧
    (blank .standard true).follow steps = .ok b ∧ b.and [] = .ok opened ∧
    (b.store.tree b.cursor).wire = .obj [] ∧
    Agrees (fun after direct => after.wire.conjuncts = direct.wire.conjuncts ∧
        (after.wire = direct.wire ↔ ¬ b.Nests .truth))
      (opened.run .truth) (b.run .truth) := by
  have prebuilt : ∀ step ∈ [Step.call .truth, .call .truth,
      .call (.about .not (.query (ofVocabulary .standard)))], step.Prebuilt := by
    simp [Step.Prebuilt, Call.subQueries, SubQuery.isFollowing]
  obtain ⟨b, reached, silent⟩ : ∃ b, (blank .standard true).follow [Step.call .truth, .call .truth,
      .call (.about .not (.query (ofVocabulary .standard)))] = .ok b ∧
      (b.store.tree b.cursor).wire = .obj [] := ⟨_, rfl, rfl⟩
  obtain ⟨opened, ran, agrees⟩ := and_nil_run .standard true prebuilt reached .truth
  exact ⟨_, b, opened, prebuilt, rfl, reached, ran, silent, agrees⟩

/-- Two nodes and, after an empty conjunction, a third: it is nested with the second. -/
theorem and_nil_run_nested : ∃ b opened after direct,
    (blank .standard true).follow [.call .truth, .call .truth] = .ok b ∧
      b.and [] = .ok opened ∧ opened.run .truth = .ok after ∧ b.run .truth = .ok direct ∧
      after.wire = .obj [("@type", .str "And"), ("and", .arr [.obj [("@type", .str "True")],
        .obj [("@type", .str "And"), ("and", .arr [.obj [("@type", .str "True")],
          .obj [("@type", .str "True")]])]])] ∧
      direct.wire = .obj [("@type", .str "And"), ("and", .arr [.obj [("@type", .str "True")],
        .obj [("@type", .str "True")], .obj [("@type", .str "True")]])] ∧
      after.wire ≠ direct.wire :=
  ⟨_, _, _, _, rfl, rfl, rfl, rfl, rfl, rfl, by decide⟩

end Builder

end GraphQuery
