import GraphQuery.Query.Call

/-!
# What a call does to a builder

A call first turns its arguments into the fields of a node, which depends on the settings of the
builder only; what is then done to the query is one of five edits. A call that replaces an object
is a conjunction of two queries of its own.

Key definitions: `Edit`, `Builder.blank`, `Call.edit`, `Builder.perform`.
Key theorems: `Builder.run_eq_perform`.
-/

namespace GraphQuery

/-- A change of the query of a builder. -/
inductive Edit where
  /-- Writes a node that is about no query. -/
  | write (op : Operation) (fields : List (String × Json))
  /-- Writes a node that is about one query. -/
  | host (op : Operation) (fields : List (String × Json)) (q : SubQuery)
  | when (condition consequent : SubQuery)
  | and (qs : List SubQuery)
  | or (qs : List SubQuery)

/-- The sub-queries that an edit puts into the query. -/
def Edit.subQueries : Edit → List SubQuery
  | write _ _ => []
  | host _ _ q => [q]
  | when condition consequent => [condition, consequent]
  | and qs | or qs => qs

namespace Builder

/-- A builder of the empty query with given settings. -/
def blank (vocabulary : Vocabulary) (expandsPaths : Bool) : Builder :=
  { ofVocabulary vocabulary with expandsPaths }

theorem cleared_eq_blank (b : Builder) : b.cleared = blank b.vocabulary b.expandsPaths := rfl

/-- Makes a change. -/
def perform (b : Builder) : Edit → Except Error Builder
  | .write op fields => .ok (b.addNode op fields)
  | .host op fields q => b.addNodeAbout op fields q
  | .when condition consequent => b.when condition consequent
  | .and qs => b.and qs
  | .or qs => b.or qs

/-- The query that replaces an object: what deletes the old one, if there is one, and what adds the
new one. -/
def replacement (vocabulary : Vocabulary) (expandsPaths : Bool) (subject predicate object : Term)
    (graph : Option String) : Except Error (Builder × Builder) := do
  let removal ← (blank vocabulary expandsPaths).removal subject predicate object graph
  let optional ← (blank vocabulary expandsPaths).about .optional (.query removal)
  let addition ← (blank vocabulary expandsPaths).edge .add subject predicate object graph
  return (optional, addition)

end Builder

namespace Call

open Builder

/-- The change that a call comes to with given settings, if its arguments are in order. -/
def edit (vocabulary : Vocabulary) (expandsPaths : Bool) : Call → Except Error Edit
  | .edge kind subject predicate object graph =>
    (edgeFields vocabulary (kind.operation graph.isSome) subject predicate object graph).map
      (.write (kind.operation graph.isSome))
  | .star graph =>
    (edgeFields vocabulary .star (.str "v:Subject") (.str "v:Predicate") (.str "v:Object")
      graph).map (.write .star)
  | .replace subject predicate object graph =>
    (replacement vocabulary expandsPaths subject predicate object graph).map fun parts =>
      .and [.query parts.1, .query parts.2]
  | .path subject pattern object bound => do
    let pattern ← (Pattern.compile pattern).mapError Error.path
    let fields ← pathFields vocabulary subject (writtenPattern vocabulary expandsPaths pattern)
      object bound
    return .write .path fields
  | .along subject pattern object bound =>
    (pathFields vocabulary subject (writtenPattern vocabulary expandsPaths pattern) object
      bound).map (.write .path)
  | .size resource amount =>
    (measureFields vocabulary .size "size" resource amount).map (.write .size)
  | .tripleCount resource amount =>
    (measureFields vocabulary .tripleCount "triple_count" resource amount).map
      (.write .tripleCount)
  | .fill op terms _ _ => (slotFields vocabulary op terms).map (.write op)
  | .and qs => .ok (.and qs)
  | .or qs => .ok (.or qs)
  | .about host q => (host.fields vocabulary).map fun fields => .host host.operation fields q
  | .when condition consequent => .ok (.when condition consequent)
  | .truth => .ok (.write .truth [])

end Call

namespace Builder

/-- **A call is an edit.** -/
theorem run_eq_perform (b : Builder) (call : Call) :
    b.run call = (call.edit b.vocabulary b.expandsPaths).bind b.perform := by
  cases call with
  | edge kind subject predicate object graph =>
    simp only [run, edge, edgeNode, Call.edit]
    cases edgeFields b.vocabulary (kind.operation graph.isSome) subject predicate object graph <;>
      rfl
  | star graph =>
    simp only [run, star, edgeNode, Call.edit]
    cases edgeFields b.vocabulary .star (.str "v:Subject") (.str "v:Predicate") (.str "v:Object")
      graph <;> rfl
  | replace subject predicate object graph =>
    simp only [run, replace, Call.edit, replacement, cleared_eq_blank]
    cases (blank b.vocabulary b.expandsPaths).removal subject predicate object graph with
    | error e => rfl
    | ok removal =>
      simp only [bind, Except.bind]
      cases (blank b.vocabulary b.expandsPaths).about .optional (.query removal) with
      | error e => rfl
      | ok optional =>
        simp only
        cases (blank b.vocabulary b.expandsPaths).edge .add subject predicate object graph <;> rfl
  | path subject pattern object path =>
    simp only [run, Builder.path, Call.edit, along]
    cases Pattern.compile pattern with
    | error e => rfl
    | ok pattern =>
      show (pathFields b.vocabulary subject (writtenPattern b.vocabulary b.expandsPaths pattern)
        object path).bind _ = Except.bind (Except.bind (pathFields b.vocabulary subject
          (writtenPattern b.vocabulary b.expandsPaths pattern) object path) _) _
      cases pathFields b.vocabulary subject (writtenPattern b.vocabulary b.expandsPaths pattern)
        object path <;> rfl
  | along subject pattern object path =>
    simp only [run, along, Call.edit]
    cases pathFields b.vocabulary subject (writtenPattern b.vocabulary b.expandsPaths pattern)
      object path <;> rfl
  | size resource amount =>
    simp only [run, size, measure, Call.edit]
    cases measureFields b.vocabulary .size "size" resource amount <;> rfl
  | tripleCount resource amount =>
    simp only [run, tripleCount, measure, Call.edit]
    cases measureFields b.vocabulary .tripleCount "triple_count" resource amount <;> rfl
  | fill op terms slotted complete =>
    simp only [run, Builder.fill, Call.edit]
    cases slotFields b.vocabulary op terms <;> rfl
  | and qs => rfl
  | or qs => rfl
  | about host q =>
    simp only [run, about, Call.edit]
    cases host.fields b.vocabulary <;> rfl
  | when condition consequent => rfl
  | truth => rfl

end Builder

end GraphQuery
