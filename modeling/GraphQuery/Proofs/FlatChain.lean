import GraphQuery.Proofs.Apart
import GraphQuery.Proofs.NormalForm
import GraphQuery.Proofs.Written

/-!
# Operations in a row make a flat conjunction

While nothing is chained and no conjunction is asked for, the query is the list of what the calls
have written so far: nothing, one query, or a conjunction of all of them with the last one at the
focus. What is sent is the list of what the calls send on their own, without those that send
nothing.

Key definitions: `Step.Flat`, `Json.conjunction`, `Sketch.Lists`.
Key theorems: `Sketch.Lists.perform`, `Sketch.Lists.wire_eq`, `Builder.wire_follow_flat`.
-/

namespace GraphQuery

/-- No conjunction is asked for, and no sub-query is left to the operations that follow. -/
def Step.Flat : Step → Prop
  | .call made => made.isConjunction = false ∧ ∀ q ∈ made.subQueries, q.isFollowing = false
  | .extendVocabulary _ => True

/-- Several queries in wire form as one: none and one need no conjunction. -/
def Json.conjunction : List Json → Json
  | [] => .obj []
  | [query] => query
  | queries => .obj [("@type", .str "And"), ("and", .arr queries)]

theorem Tree.getD_combine_and (items : List Json) :
    (combine .and items).getD (.obj []) = Json.conjunction items := by
  match items with
  | [] | [_] => rfl
  | _ :: _ :: _ => rfl

/-- A call that asks for no conjunction and chains nothing comes to an edit that writes one query,
which is no conjunction and has no place left open. -/
theorem Step.Flat.edit {vocabulary : Vocabulary} {expandsPaths : Bool} {call : Call} {e : Edit}
    (flat : Step.Flat (.call call)) (found : call.edit vocabulary expandsPaths = .ok e) :
    e.isConjunction = false ∧ ∀ w, e.written = .ok w →
      w.next = none ∧ w.tree.kind ≠ none ∧ w.tree.kind ≠ some "And" := by
  obtain ⟨other, prebuilt⟩ := flat
  have single : call.operation.isComposite = false := by
    rcases Builder.single_or_replace call with single | ⟨_, _, _, _, rfl⟩
    · exact single
    · cases other
  obtain ⟨plain, -, -⟩ := Builder.edit_plain single found
  have other : e.isConjunction = false := (Call.isConjunction_edit found).trans other
  refine ⟨other, fun w wrote => ?_⟩
  obtain ⟨taken, kind⟩ := Edit.kind_written plain wrote
  exact ⟨Edit.next_of_prebuilt (Call.edit_prebuilt found prebuilt) wrote, taken, kind other⟩

namespace Sketch

/-- The query so far is a list of queries, the last of which is at the focus. -/
inductive Lists : Sketch → List Tree → Prop where
  | none (vocabulary : Vocabulary) (expandsPaths : Bool) : Lists (blank vocabulary expandsPaths) []
  | one {t : Tree} (vocabulary : Vocabulary) (expandsPaths : Bool) : t.kind ≠ .none →
    t.kind ≠ some "And" → Lists ⟨[], .none, t, vocabulary, expandsPaths⟩ [t]
  | several (ts : List Tree) {t : Tree} (vocabulary : Vocabulary) (expandsPaths : Bool) :
    t.kind ≠ .none →
    Lists ⟨[], some [("and", .queries ts)], t, vocabulary, expandsPaths⟩ (ts ++ [t])

namespace Lists

variable {k : Sketch} {ts : List Tree}

/-- There is an empty place at the end, and a query written there is the next of the list. -/
theorem put (h : k.Lists ts) : k.free.focus = .empty ∧ ∀ w : Written, w.next = .none →
    w.tree.kind ≠ .none → w.tree.kind ≠ some "And" → (k.free.put w).Lists (ts ++ [w.tree]) := by
  cases h with
  | none vocabulary expandsPaths =>
    refine ⟨rfl, fun w closed taken other => ?_⟩
    have put : (blank vocabulary expandsPaths).free.put w =
        ⟨[], .none, w.tree, vocabulary, expandsPaths⟩ := by
      rw [Sketch.put, closed]
      rfl
    rw [put]
    exact .one vocabulary expandsPaths taken other
  | @one t vocabulary expandsPaths taken other =>
    have conjoined : t.conjoined = .node (some "And") [("and", .queries [t])] := if_neg other
    have free : (⟨[], .none, t, vocabulary, expandsPaths⟩ : Sketch).free =
        ⟨[], some [("and", .queries [t])], .empty, vocabulary, expandsPaths⟩ := by
      rw [Sketch.free, if_pos (Option.isSome_iff_ne_none.2 taken)]
      simp only [conjoin, openConjunction, conjoined]
      rfl
    rw [free]
    refine ⟨rfl, fun w closed taken _ => ?_⟩
    rw [Sketch.put, closed]
    exact .several [t] vocabulary expandsPaths taken
  | @several ts t vocabulary expandsPaths taken =>
    have free : (⟨[], some [("and", .queries ts)], t, vocabulary, expandsPaths⟩ : Sketch).free =
        ⟨[], some [("and", .queries (ts ++ [t]))], .empty, vocabulary, expandsPaths⟩ := by
      rw [Sketch.free, if_pos (Option.isSome_iff_ne_none.2 taken)]
      simp only [conjoin, openConjunction, Frame.filled_conjunction]
      rfl
    rw [free]
    refine ⟨rfl, fun w closed taken _ => ?_⟩
    rw [Sketch.put, closed]
    exact .several (ts ++ [t]) vocabulary expandsPaths taken

/-- What is sent is what the queries send, as one conjunction. -/
theorem wire_eq (h : k.Lists ts) : k.tree.wire = Json.conjunction (ts.filterMap Tree.wire?) := by
  rw [← Tree.getD_combine_and, Tree.wire]
  congr 1
  cases h with
  | none vocabulary expandsPaths => exact Tree.wire?_empty
  | @one t vocabulary expandsPaths taken other =>
    have tree : (⟨[], .none, t, vocabulary, expandsPaths⟩ : Sketch).tree = t := rfl
    rw [tree, List.filterMap_cons]
    cases t.wire? <;> rfl
  | @several ts t vocabulary expandsPaths taken =>
    have tree : (⟨[], some [("and", .queries ts)], t, vocabulary, expandsPaths⟩ : Sketch).tree =
        .node (some "And") [("and", .queries (ts ++ [t]))] := by
      rw [← Frame.filled_conjunction]
      rfl
    have listed := Tree.children_combination .and (ts ++ [t])
    rw [tree, Tree.wire?_of_kind (c := .and) rfl]
    exact congrArg (fun queries => Tree.combine .and (queries.filterMap Tree.wire?)) listed

/-- Other settings leave the list as it is. -/
theorem settings (h : k.Lists ts) (vocabulary : Vocabulary) (expandsPaths : Bool) :
    Lists { k with vocabulary, expandsPaths } ts := by
  cases h with
  | none => exact .none vocabulary expandsPaths
  | one _ _ taken other => exact .one vocabulary expandsPaths taken other
  | several ts _ _ taken => exact .several ts vocabulary expandsPaths taken

/-- **A flat edit puts at the end of the list what it writes alone.** -/
theorem perform (h : k.Lists ts) {e : Edit} (other : e.isConjunction = false)
    (fits : ∀ w, e.written = .ok w →
      w.next = .none ∧ w.tree.kind ≠ .none ∧ w.tree.kind ≠ some "And")
    (vocabulary : Vocabulary) (expandsPaths : Bool) :
    Agrees (fun after alone => after.Lists (ts ++ [alone.tree])) (k.perform e)
      ((blank vocabulary expandsPaths).perform e) := by
  obtain ⟨empty, next⟩ := h.put
  rw [perform_eq_put other empty, perform_blank]
  cases wrote : e.written with
  | error error => exact .error error
  | ok w =>
    obtain ⟨closed, taken, kind⟩ := fits w wrote
    have alone : ((blank vocabulary expandsPaths).put w).tree = w.tree :=
      tree_put fun _ _ => Edit.open_written wrote
    refine .ok ?_
    rw [alone]
    exact next w closed taken kind

end Lists

/-- What is sent so far is a list of queries that say something. -/
def Sends (k : Sketch) (sent : List Json) : Prop :=
  ∃ ts, k.Lists ts ∧ ts.filterMap Tree.wire? = sent

/-- A flat step sends one query more, or nothing more. -/
theorem Sends.step {k : Sketch} {sent : List Json} {step : Step} (h : k.Sends sent)
    (flat : step.Flat) : k.AddsShare Sends (fun json => [json].filter (· ≠ .obj [])) sent step := by
  obtain ⟨ts, lists, rfl⟩ := h
  have share : ∀ t : Tree, [t.wire].filter (· ≠ .obj []) = [t].filterMap Tree.wire? := by
    intro t
    have silent := t.wire_eq_empty_iff
    unfold Tree.wire at silent ⊢
    cases written : t.wire? with
    | none => simp [written]
    | some json =>
      have ne : json ≠ .obj [] := by simpa [written] using silent
      simp [written, ne]
  cases step with
  | extendVocabulary given =>
    unfold AddsShare
    simp only [share, ← List.filterMap_append]
    have silent : (ts ++ [Tree.empty]).filterMap Tree.wire? = ts.filterMap Tree.wire? := by simp
    exact .ok ⟨⟨ts, lists.settings _ _, silent.symm⟩, rfl, rfl⟩
  | call call =>
    refine addsShare_call fun e found => ?_
    obtain ⟨other, fits⟩ := flat.edit found
    refine (lists.perform other fits k.vocabulary k.expandsPaths).imp fun after alone added => ?_
    simp only [share, ← List.filterMap_append]
    exact ⟨_, added, rfl⟩

end Sketch

namespace Builder

/-- **Operations in a row make a flat conjunction.** The query that steps make of the empty one,
none of them chaining or asking for a conjunction, sends what the steps send when each is done
apart: in order, without those that send nothing, and as a conjunction if there are several. If a
step fails, it fails apart with the same error. -/
theorem wire_follow_flat (vocabulary : Vocabulary) (expandsPaths : Bool) {steps : List Step}
    (flat : ∀ step ∈ steps, step.Flat) :
    ((blank vocabulary expandsPaths).follow steps).map wire =
      ((blank vocabulary expandsPaths).apart steps).map fun queries =>
        Json.conjunction (queries.filter (· ≠ .obj [])) := by
  have start := realizes_blank vocabulary expandsPaths
  have nothing : (Sketch.blank vocabulary expandsPaths).Sends [] :=
    ⟨[], .none vocabulary expandsPaths, rfl⟩
  have settings : blank (Sketch.blank vocabulary expandsPaths).vocabulary
      (Sketch.blank vocabulary expandsPaths).expandsPaths = blank vocabulary expandsPaths := rfl
  have sent := start.follow_apart (fun k before step h flat => h.step flat) nothing flat
  rw [settings] at sent
  cases followed : (blank vocabulary expandsPaths).follow steps with
  | error e =>
    rw [followed] at sent
    rw [sent.symm.eq_error]
    rfl
  | ok after =>
    rw [followed] at sent
    obtain ⟨queries, apart, k, realizes, ts, lists, listed⟩ := sent.exists_right
    have whole : queries.flatMap (fun json => [json].filter (· ≠ .obj [])) =
        queries.filter (· ≠ .obj []) := by
      rw [← List.filter_flatMap]
      simp
    rw [List.nil_append, whole] at listed
    rw [apart, Except.map, Except.map, wire, realizes.tree_eq, lists.wire_eq, listed]

/-- A node, a negation of nothing, a disjunction that is its only query, and an optional query. -/
theorem wire_follow_flat_silent : ∃ steps : List Step, (∀ step ∈ steps, step.Flat) ∧
    steps = [.call .truth, .call (.about .not (.query (ofVocabulary .standard))),
      .call (.or [.json (.obj [("a", .null)])]), .call (.about .optional .truth)] ∧
    (blank .standard true).apart steps = .ok [.obj [("@type", .str "True")], .obj [],
      .obj [("a", .null)], .obj [("@type", .str "Optional"),
        ("query", .obj [("@type", .str "True")])]] ∧
    ((blank .standard true).follow steps).map wire =
      ((blank .standard true).apart steps).map fun queries =>
        Json.conjunction (queries.filter (· ≠ .obj [])) := by
  refine ⟨_, ?_, rfl, ?_, wire_follow_flat .standard true ?_⟩
  · simp [Step.Flat, Call.isConjunction, Call.subQueries, SubQuery.isFollowing]
  · rfl
  · simp [Step.Flat, Call.isConjunction, Call.subQueries, SubQuery.isFollowing]

end Builder

end GraphQuery
