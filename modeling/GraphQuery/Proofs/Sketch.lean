import GraphQuery.Proofs.Branch
import GraphQuery.Proofs.Edit
import GraphQuery.Proofs.Success

/-!
# A query under construction as a tree

What a builder keeps in a store of nodes is a tree and a place in it. A sketch is that tree taken
apart at the place: the focus is what stands there, and the frames around it, from the inside out,
are the nodes on the way to the root, each with a gap. While operations are conjoined, the innermost
node is a conjunction and the focus comes after its queries. Every edit touches the focus and the
innermost conjunction only, so it does not depend on what is around.

Key definitions: `Gap`, `Frame`, `Sketch`, `Sketch.tree`, `SubQuery.tree`, `Sketch.perform`.
Key theorems: `Sketch.perform_within`, `Sketch.tree_within`.
-/

namespace GraphQuery

/-- The place of a missing query in a field. -/
inductive Gap (α : Type) where
  /-- The field holds one query. -/
  | single
  /-- The field holds a list of queries. -/
  | among (before after : List α)

namespace Gap

variable {α β : Type}

/-- The field with a query in the gap. -/
def fill (x : α) : Gap α → Branch α
  | single => .query x
  | among before after => .queries (before ++ x :: after)

/-- Adds queries at the end of the list. -/
def extend (given : List α) : Gap α → Gap α
  | single => single
  | among before after => among before (after ++ given)

def map (f : α → β) : Gap α → Gap β
  | single => single
  | among before after => among (before.map f) (after.map f)

@[simp] theorem map_fill (f : α → β) (x : α) (gap : Gap α) :
    (gap.fill x).map f = (gap.map f).fill (f x) := by
  cases gap <;> simp [fill, map, Branch.map]

end Gap

/-- A node with a gap in the field `key`. What `fields` has under `key` does not matter. -/
structure Frame (α : Type) where
  kind : Option String
  fields : Dictionary (Branch α)
  key : String
  gap : Gap α

namespace Frame

variable {α β : Type}

/-- The fields of the node with a query in the gap. -/
def filled (frame : Frame α) (x : α) : Dictionary (Branch α) :=
  Dictionary.insert frame.key (frame.gap.fill x) frame.fields

def map (f : α → β) (frame : Frame α) : Frame β :=
  ⟨frame.kind, Dictionary.mapValues (Branch.map f) frame.fields, frame.key, frame.gap.map f⟩

theorem mapValues_filled (f : α → β) (frame : Frame α) (x : α) :
    Dictionary.mapValues (Branch.map f) (frame.filled x) = (frame.map f).filled (f x) := by
  simp [filled, map, Dictionary.mapValues_insert]

/-- A conjunction whose last query is missing. -/
def conjunction (fields : Dictionary (Branch α)) : Frame α :=
  ⟨some "And", fields, "and", .among (Branch.children "and" fields) []⟩

theorem filled_conjunction (xs : List α) (x : α) :
    (conjunction [("and", .queries xs)]).filled x = [("and", .queries (xs ++ [x]))] := by
  simp [conjunction, filled, Gap.fill, Branch.children, Dictionary.find?]

end Frame

namespace Tree

def kind : Tree → Option String
  | .node kind _ => kind

def fields : Tree → Dictionary (Branch Tree)
  | .node _ fields => fields

/-- Gives a field of the node a new content. -/
def set (key : String) (branch : Branch Tree) (t : Tree) : Tree :=
  .node t.kind (t.fields.insert key branch)

/-- The sub-queries that the node lists under a name. -/
def children (key : String) (t : Tree) : List Tree := Branch.children key t.fields

/-- Adds sub-queries to the list under a name. -/
def append (key : String) (given : List Tree) (t : Tree) : Tree :=
  t.set key (.queries (t.children key ++ given))

theorem children_append (key : String) (given : List Tree) (t : Tree) :
    (t.append key given).children key = t.children key ++ given := by
  simp [append, set, children, fields, Branch.children]

/-- The queries that a query is a combination of. -/
def combined (c : Combinator) (t : Tree) : List Tree :=
  if t.kind = some c.kind then t.children c.key else [t]

/-- Gives the node a kind and plain fields. -/
def write (kind : String) (fields : List (String × Json)) (t : Tree) : Tree :=
  .node (some kind) (Branch.withValues fields t.fields)

/-- The node that a conjunction goes on from: the node itself if it is a conjunction, else one with
the node as its only query. -/
def conjoined (t : Tree) : Tree :=
  if t.kind = some "And" then t else .node (some "And") [("and", .queries [t])]

theorem combined_empty (c : Combinator) : empty.combined c = [empty] :=
  if_neg (Option.some_ne_none c.kind).symm

theorem set_set (key : String) (old branch : Branch Tree) (t : Tree) :
    (t.set key old).set key branch = t.set key branch := by
  simp only [set, kind, fields, Dictionary.insert_insert]

theorem set_comm {key other : String} (less : key < other) (branch branch₁ : Branch Tree)
    (t : Tree) : (t.set other branch₁).set key branch = (t.set key branch).set other branch₁ := by
  simp only [set, kind, fields, Dictionary.insert_comm less]

theorem conjoined_kind (t : Tree) : t.conjoined.kind = some "And" := by
  unfold conjoined
  by_cases same : t.kind = some "And"
  · rw [if_pos same, same]
  · rw [if_neg same]
    rfl

/-- The tree of a query in frames, from the inside out. -/
def within (frames : List (Frame Tree)) (t : Tree) : Tree :=
  frames.foldl (fun t frame => .node frame.kind (frame.filled t)) t

/-- The fields of a finished query keep their order. -/
theorem keys_ofFieldList_sublist (kind : Option String) : ∀ fields : Dictionary Json,
    (Dictionary.keys (ofFieldList kind fields)).Sublist (Dictionary.keys fields)
  | [] => .slnil
  | (key, json) :: rest => by
    have ih := keys_ofFieldList_sublist kind rest
    unfold ofFieldList
    by_cases same : key = "@type"
    · rw [if_pos same]
      exact ih.cons key
    · rw [if_neg same]
      exact ih.cons_cons key

theorem sorted_ofFieldList (kind : Option String) {fields : Dictionary Json}
    (sorted : fields.Sorted) : Dictionary.Sorted (ofFieldList kind fields) :=
  List.pairwise_map.1 ((List.pairwise_map.2 sorted).sublist (keys_ofFieldList_sublist kind fields))

theorem within_append (inner outer : List (Frame Tree)) (t : Tree) :
    t.within (inner ++ outer) = (t.within inner).within outer := by
  simp [within]

end Tree

/-- The tree that a sub-query is stored as. One that is left to the operations that follow is empty.
-/
def SubQuery.tree (op : Operation) (field : String) : SubQuery → Except Error Tree
  | following => .ok .empty
  | query b => .ok (b.store.tree b.root)
  | truth => .ok (.node (some "True") [])
  | json (.obj fields) => .ok (.ofFields fields)
  | json other => .error (.parameter op.name field (.notQuery other))

/-- The operations that follow start from the empty query. -/
theorem SubQuery.eq_empty_of_isFollowing {q : SubQuery} {op : Operation} {field : String} {t : Tree}
    (following : q.isFollowing) (found : q.tree op field = .ok t) : t = .empty := by
  cases q with
  | following => exact (Except.ok.inj found).symm
  | _ => cases following

namespace Tree

theorem children_combination (c : Combinator) (ts : List Tree) :
    children c.key (.node (some c.kind) [(c.key, .queries ts)]) = ts := by
  simp [children, fields, Branch.children, Dictionary.find?]

theorem set_combination (c : Combinator) (ts us : List Tree) :
    set c.key (.queries us) (.node (some c.kind) [(c.key, .queries ts)]) =
      .node (some c.kind) [(c.key, .queries us)] := by
  simp [set, kind, fields]

theorem append_combination (c : Combinator) (ts given : List Tree) :
    append c.key given (.node (some c.kind) [(c.key, .queries ts)]) =
      .node (some c.kind) [(c.key, .queries (ts ++ given))] := by
  rw [append, children_combination, set_combination]

end Tree

/-- Adds sub-queries to the combination that a node is. The result names the gap of the last one
that is left to the operations that follow. -/
def Tree.pushAll (c : Combinator) (t : Tree) (gap : Option (Gap Tree)) :
    List SubQuery → Except Error (Tree × Option (Gap Tree))
  | [] => .ok (t, gap)
  | q :: qs => do
    let given ← q.tree c.operation c.key
    (t.append c.key (given.combined c)).pushAll c
      (if q.isFollowing then some (.among (t.children c.key) [])
        else gap.map (Gap.extend (given.combined c))) qs

/-- A query under construction, taken apart at the place of the next operation. -/
structure Sketch where
  /-- The nodes around the focus and its conjunction, from the inside out. -/
  frames : List (Frame Tree)
  /-- While operations are conjoined, the fields of the conjunction that the focus is the last query
  of, without the focus. -/
  conjunction : Option (Dictionary (Branch Tree))
  focus : Tree
  vocabulary : Vocabulary
  expandsPaths : Bool

namespace Sketch

/-- All the nodes around the focus, from the inside out. -/
def path (s : Sketch) : List (Frame Tree) :=
  match s.conjunction with
  | some fields => .conjunction fields :: s.frames
  | none => s.frames

/-- The whole query. -/
def tree (s : Sketch) : Tree := s.focus.within s.path

/-- The sketch of the empty query. -/
def blank (vocabulary : Vocabulary) (expandsPaths : Bool) : Sketch :=
  ⟨[], none, .empty, vocabulary, expandsPaths⟩

/-- Moves the focus into a gap of its node. -/
def descend (key : String) (s : Sketch) (gap : Gap Tree) : Sketch :=
  { s with
    frames := ⟨s.focus.kind, s.focus.fields, key, gap⟩ :: s.path
    conjunction := none
    focus := .empty }

/-- The conjunction that the next query is added to. -/
def openConjunction (s : Sketch) : Tree :=
  match s.conjunction with
  | some fields => .node (some "And") ((Frame.conjunction fields).filled s.focus)
  | none => s.focus.conjoined

theorem openConjunction_kind (s : Sketch) : s.openConjunction.kind = some "And" := by
  unfold openConjunction
  cases s.conjunction with
  | none => exact s.focus.conjoined_kind
  | some fields => rfl

/-- Moves the focus to a new query at the end of the conjunction at hand. -/
def conjoin (s : Sketch) : Sketch :=
  { s with conjunction := some s.openConjunction.fields, focus := .empty }

/-- Writes a node at the focus, after what is there already. -/
def write (op : Operation) (fields : List (String × Json)) (s : Sketch) : Sketch :=
  let s := if s.focus.kind.isSome then s.conjoin else s
  { s with focus := s.focus.write op.kind fields }

/-- The sketch with a focus that the next node can be written at. -/
def free (s : Sketch) : Sketch := if s.focus.kind.isSome then s.conjoin else s

theorem write_eq_free (op : Operation) (fields : List (String × Json)) (s : Sketch) :
    s.write op fields = { s.free with focus := s.free.focus.write op.kind fields } := rfl

/-- Adds sub-queries to the combination at the focus. -/
def appendAll (c : Combinator) (qs : List SubQuery) (s : Sketch) : Except Error Sketch := do
  let (t, gap) ← s.focus.pushAll c none qs
  return gap.elim { s with focus := t } ({ s with focus := t }.descend c.key)

/-- Writes a node that is about a query. -/
def host (op : Operation) (fields : List (String × Json)) (q : SubQuery) (s : Sketch) :
    Except Error Sketch := do
  let s := s.write op fields
  let t ← q.tree op "query"
  let s := { s with focus := s.focus.set "query" (.query t) }
  return if q.isFollowing then s.descend "query" .single else s

/-- Writes a node that is about a query and what is done for its solutions. -/
def when (condition consequent : SubQuery) (s : Sketch) : Except Error Sketch :=
  if condition.isFollowing && consequent.isFollowing then
    .error (.parameter Operation.when.name "query" .bothOpen)
  else do
    let s := s.write .when []
    let query ← condition.tree .when "query"
    let next ← consequent.tree .when "consequent"
    let s := { s with focus := (s.focus.set "query" (.query query)).set "consequent" (.query next) }
    return if consequent.isFollowing then s.descend "consequent" .single
      else if condition.isFollowing then s.descend "query" .single
      else s

/-- What a host does if it succeeds. -/
theorem host_eq_ok_iff {op : Operation} {fields : List (String × Json)} {q : SubQuery}
    {s after : Sketch} : s.host op fields q = .ok after ↔ ∃ t, q.tree op "query" = .ok t ∧
      after =
        let placed := { s.write op fields with
          focus := (s.write op fields).focus.set "query" (.query t) }
        if q.isFollowing then placed.descend "query" .single else placed := by
  unfold host
  simp only [bind_eq_ok_iff, pure, Except.pure, Except.ok.injEq]
  simp only [eq_comm (b := after)]

/-- What `when` does if it succeeds. -/
theorem when_eq_ok_iff {condition consequent : SubQuery} {s after : Sketch} :
    s.when condition consequent = .ok after ↔
      (condition.isFollowing && consequent.isFollowing) = false ∧ ∃ query next,
        condition.tree .when "query" = .ok query ∧ consequent.tree .when "consequent" = .ok next ∧
        after =
          let placed := { s.write .when [] with
            focus := ((s.write .when []).focus.set "query" (.query query)).set "consequent"
              (.query next) }
          if consequent.isFollowing then placed.descend "consequent" .single
          else if condition.isFollowing then placed.descend "query" .single
          else placed := by
  unfold when
  by_cases both : (condition.isFollowing && consequent.isFollowing) = true
  · simp [both]
  · have notBoth : (condition.isFollowing && consequent.isFollowing) = false := by
      simpa using both
    simp only [notBoth, Bool.false_eq_true, if_false, bind_eq_ok_iff, pure, Except.pure,
      Except.ok.injEq]
    constructor
    · rintro ⟨query, found, next, found₁, built⟩
      exact ⟨trivial, query, next, found, found₁, built.symm⟩
    · rintro ⟨-, query, next, found, found₁, built⟩
      exact ⟨query, found, next, found₁, built.symm⟩

/-- Makes the focus a conjunction. What was there becomes its first query. -/
def beginAnd (s : Sketch) : Sketch :=
  { s with
    frames := s.path
    conjunction := none
    focus := if s.focus.kind.isSome then s.focus.conjoined
      else .node (some "And") [("and", .queries [])] }

def and (qs : List SubQuery) (s : Sketch) : Except Error Sketch := s.beginAnd.appendAll .and qs

/-- Writes a disjunction without queries. -/
def beginOr (s : Sketch) : Sketch :=
  let s := s.write .or []
  { s with focus := s.focus.set "or" (.queries []) }

def or (qs : List SubQuery) (s : Sketch) : Except Error Sketch := s.beginOr.appendAll .or qs

/-- Makes a change. -/
def perform (s : Sketch) : Edit → Except Error Sketch
  | .write op fields => .ok (s.write op fields)
  | .host op fields q => s.host op fields q
  | .when condition consequent => s.when condition consequent
  | .and qs => s.and qs
  | .or qs => s.or qs

/-- Runs a call. -/
def run (s : Sketch) (call : Call) : Except Error Sketch :=
  (call.edit s.vocabulary s.expandsPaths).bind s.perform

/-- A combination of whole queries. -/
def combination (c : Combinator) (parts : List Tree) (s : Sketch) : Sketch :=
  { blank s.vocabulary s.expandsPaths with
    focus := .node (some c.kind) [(c.key, .queries (parts.flatMap (Tree.combined c)))] }

/-! ### A sketch inside frames -/

/-- The sketch with more frames around it. -/
def within (outer : List (Frame Tree)) (s : Sketch) : Sketch :=
  { s with frames := s.frames ++ outer }

theorem path_within (outer : List (Frame Tree)) (s : Sketch) :
    (s.within outer).path = s.path ++ outer := by
  unfold path within
  cases s.conjunction <;> rfl

/-- The tree of a sketch inside frames is its tree inside them. -/
theorem tree_within (outer : List (Frame Tree)) (s : Sketch) :
    (s.within outer).tree = s.tree.within outer := by
  simp only [tree, path_within, Tree.within_append]
  rfl

theorem descend_within (outer : List (Frame Tree)) (key : String) (s : Sketch) (gap : Gap Tree) :
    (s.within outer).descend key gap = (s.descend key gap).within outer := by
  simp only [descend, path_within]
  rfl

theorem write_within (outer : List (Frame Tree)) (op : Operation) (fields : List (String × Json))
    (s : Sketch) : (s.within outer).write op fields = (s.write op fields).within outer := by
  unfold write
  by_cases taken : s.focus.kind.isSome
  · have taken₁ : (s.within outer).focus.kind.isSome := taken
    simp only [taken, taken₁, if_true]
    rfl
  · have free : ¬ (s.within outer).focus.kind.isSome := taken
    simp only [taken, free]
    rfl

theorem appendAll_within (outer : List (Frame Tree)) (c : Combinator) (qs : List SubQuery)
    (s : Sketch) : (s.within outer).appendAll c qs = (s.appendAll c qs).map (within outer) := by
  have same : (s.within outer).focus = s.focus := rfl
  unfold appendAll
  rw [same]
  cases s.focus.pushAll c none qs with
  | error e => rfl
  | ok result =>
    obtain ⟨t, gap⟩ := result
    cases gap with
    | none => rfl
    | some gap => exact congrArg Except.ok (descend_within outer c.key { s with focus := t } gap)

theorem host_within (outer : List (Frame Tree)) (op : Operation) (fields : List (String × Json))
    (q : SubQuery) (s : Sketch) :
    (s.within outer).host op fields q = (s.host op fields q).map (within outer) := by
  unfold host
  simp only [write_within]
  cases q.tree op "query" with
  | error e => rfl
  | ok t =>
    set written := s.write op fields
    by_cases following : q.isFollowing
    · simp only [following, if_true]
      exact congrArg Except.ok (descend_within outer "query"
        { written with focus := written.focus.set "query" (.query t) } .single)
    · simp only [following]
      rfl

theorem when_within (outer : List (Frame Tree)) (condition consequent : SubQuery) (s : Sketch) :
    (s.within outer).when condition consequent =
      (s.when condition consequent).map (within outer) := by
  unfold when
  by_cases both : (condition.isFollowing && consequent.isFollowing) = true
  · simp only [both, if_true]
    rfl
  · simp only [both, write_within]
    set written := s.write .when []
    cases condition.tree .when "query" with
    | error e => rfl
    | ok query =>
      cases consequent.tree .when "consequent" with
      | error e => rfl
      | ok next =>
        set placed : Sketch := { written with
          focus := (written.focus.set "query" (.query query)).set "consequent" (.query next) }
        by_cases later : consequent.isFollowing
        · simp only [later, if_true]
          exact congrArg Except.ok (descend_within outer "consequent" placed .single)
        · by_cases sooner : condition.isFollowing
          · simp only [later, sooner, if_true]
            exact congrArg Except.ok (descend_within outer "query" placed .single)
          · simp only [later, sooner]
            rfl

/-- **An edit does not depend on what is around.** -/
theorem perform_within (outer : List (Frame Tree)) (s : Sketch) (e : Edit) :
    (s.within outer).perform e = (s.perform e).map (within outer) := by
  cases e with
  | write op fields => exact congrArg Except.ok (write_within outer op fields s)
  | host op fields q => exact host_within outer op fields q s
  | when condition consequent => exact when_within outer condition consequent s
  | and qs =>
    have same : (s.within outer).beginAnd = s.beginAnd.within outer := by
      simp only [beginAnd, path_within]
      rfl
    simp only [perform, and, same, appendAll_within]
  | or qs =>
    have same : (s.within outer).beginOr = s.beginOr.within outer := by
      simp only [beginOr, write_within]
      rfl
    simp only [perform, or, same, appendAll_within]

end Sketch

end GraphQuery
