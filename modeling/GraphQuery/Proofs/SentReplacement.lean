import GraphQuery.Proofs.Combination
import GraphQuery.Proofs.Hosting
import GraphQuery.Proofs.Replacement

/-!
# What a replacement sends

On an empty builder an object can be replaced exactly if the new edge can be added. What is sent
then is made of four edges with the same subject and the same predicate, as they would be written
when the new edge is added: the edge to the old object is looked for and deleted unless the new edge
is there, and the new edge is added. In a graph that is named, each of the four edges names it.

Key definitions: `EdgeParts`, `EdgeParts.Coerced`, `EdgeParts.node`, `EdgeParts.replacement`.
Key theorems: `Builder.edgeFields_eq_ok_iff`, `Builder.exists_replace_iff`,
`EdgeParts.wire?_optionalRemoval`, `Builder.replace_wire`.
-/

namespace GraphQuery

/-- The parts of an edge as they are written. -/
structure EdgeParts where
  subject : Json
  predicate : Json
  object : Json

namespace EdgeParts

/-- What terms are written as when an edge of them is added. -/
structure Coerced (vocabulary : Vocabulary) (subject predicate object : Term) (parts : EdgeParts) :
    Prop where
  subject : (Builder.position .addTriple "subject").reference vocabulary "Subject" subject =
    .ok parts.subject
  predicate : (Builder.position .addTriple "predicate").reference vocabulary "Predicate" predicate =
    .ok parts.predicate
  object : (Builder.position .addTriple "object").fill vocabulary .value none object =
    .ok parts.object

/-- The fields of the edge to some object, in the graph that is named, if any. -/
def fields (parts : EdgeParts) (object : Json) (graph : Option String) : List (String × Json) :=
  [("subject", parts.subject), ("predicate", parts.predicate), ("object", object)] ++
    graph.toList.map fun name => ("graph", .str name)

/-- What a node of some kind sends about the edge to some object. -/
def node (parts : EdgeParts) (kind : String) (object : Json) (graph : Option String) : Json :=
  .object (parts.fields object graph ++ [("@type", .str kind)])

/-- The variable of the object that is replaced. -/
def oldObject : Json := .obj [("@type", .str "Value"), ("variable", .str "AnyObject")]

/-- What looks for the edge to the old object and deletes it, unless it is the new edge. -/
def removal (parts : EdgeParts) (graph : Option String) : Json :=
  .obj [("@type", .str "And"), ("and", .arr [parts.node "Triple" oldObject graph,
    parts.node "DeleteTriple" oldObject graph,
    .obj [("@type", .str "Not"), ("query", parts.node "Triple" parts.object graph)]])]

/-- What replaces the object of the edge. -/
def replacement (parts : EdgeParts) (graph : Option String) : Json :=
  .obj [("@type", .str "And"), ("and", .arr [
    .obj [("@type", .str "Optional"), ("query", parts.removal graph)],
    parts.node "AddTriple" parts.object graph])]

theorem fields_plain (parts : EdgeParts) (object : Json) (graph : Option String) :
    PlainFields (parts.fields object graph) := by
  have names : (parts.fields object graph).map Prod.fst = EdgeKind.parameters graph.isSome := by
    cases graph <;> rfl
  have plain : ∀ named : Bool, ∀ name ∈ EdgeKind.parameters named, PlainKey name := by decide
  intro field mem
  exact plain graph.isSome _ (names ▸ List.mem_map_of_mem mem)

/-- The old object may stand in the place of the new one. -/
theorem Coerced.old {vocabulary : Vocabulary} {subject predicate object : Term}
    {parts : EdgeParts} (coerced : parts.Coerced vocabulary subject predicate object) :
    Coerced vocabulary subject predicate Builder.oldObject
      ⟨parts.subject, parts.predicate, oldObject⟩ :=
  ⟨coerced.subject, coerced.predicate, rfl⟩

end EdgeParts

namespace Builder

variable {vocabulary : Vocabulary} {subject predicate object : Term} {graph : Option String}

/-- The fields of an edge in the default graph are its parts as they are written when it is added,
whatever is said of it. -/
theorem edgeParts_eq_ok_iff (op : Operation) {fields : List (String × Json)} :
    edgeParts vocabulary op subject predicate object = .ok fields ↔
      ∃ parts : EdgeParts, parts.Coerced vocabulary subject predicate object ∧
        fields = parts.fields parts.object none := by
  constructor
  · intro found
    obtain ⟨first, found₁, found⟩ := bind_eq_ok_iff.1 found
    obtain ⟨second, found₂, found⟩ := bind_eq_ok_iff.1 found
    obtain ⟨third, found₃, same⟩ := bind_eq_ok_iff.1 found
    refine ⟨⟨first, second, third⟩, ⟨?_, ?_, ?_⟩, (Except.ok.inj same).symm⟩
    · exact Position.reference_agnostic found₁ _
    · exact Position.reference_agnostic found₂ _
    · exact Position.fill_agnostic found₃ _
  · rintro ⟨parts, coerced, rfl⟩
    refine bind_eq_ok_iff.2 ⟨_, Position.reference_agnostic coerced.subject _, ?_⟩
    refine bind_eq_ok_iff.2 ⟨_, Position.reference_agnostic coerced.predicate _, ?_⟩
    exact bind_eq_ok_iff.2 ⟨_, Position.fill_agnostic coerced.object _, rfl⟩

/-- In a graph that is named there is one more field, and the name must not be blank. -/
theorem edgeFields_eq_ok_iff (op : Operation) {fields : List (String × Json)} :
    edgeFields vocabulary op subject predicate object graph = .ok fields ↔
      (∀ name ∈ graph, isBlank name = false) ∧ ∃ parts : EdgeParts,
        parts.Coerced vocabulary subject predicate object ∧
        fields = parts.fields parts.object graph := by
  cases graph with
  | none => exact (edgeParts_eq_ok_iff op).trans (and_iff_right (by simp)).symm
  | some name =>
    simp only [edgeFields, Option.mem_some_iff, forall_eq']
    by_cases blank : isBlank name
    · rw [if_pos blank]
      exact iff_of_false (by simp) fun h => by simp [blank] at h
    · rw [if_neg blank]
      simp only [bind_eq_ok_iff, edgeParts_eq_ok_iff]
      constructor
      · rintro ⟨given, ⟨parts, coerced, rfl⟩, same⟩
        exact ⟨by simpa using blank, parts, coerced, (Except.ok.inj same).symm⟩
      · rintro ⟨-, parts, coerced, rfl⟩
        exact ⟨_, ⟨parts, coerced, rfl⟩, rfl⟩

/-- An edge can be written exactly if its parts can be, in a graph that has a name. -/
theorem exists_edge_iff (kind : EdgeKind) (b : Builder) :
    (∃ after, b.edge kind subject predicate object graph = .ok after) ↔
      (∀ name ∈ graph, isBlank name = false) ∧
        ∃ parts : EdgeParts, parts.Coerced b.vocabulary subject predicate object := by
  constructor
  · rintro ⟨after, ran⟩
    obtain ⟨fields, found, -⟩ := bind_eq_ok_iff.1 ran
    obtain ⟨said, parts, coerced, -⟩ := (edgeFields_eq_ok_iff _).1 found
    exact ⟨said, parts, coerced⟩
  · rintro ⟨said, parts, coerced⟩
    have found := (edgeFields_eq_ok_iff (kind.operation graph.isSome)).2
      ⟨said, parts, coerced, rfl⟩
    exact ⟨_, bind_eq_ok_iff.2 ⟨_, found, rfl⟩⟩

/-- Where an edge can be added, the one to the old object can be looked for and deleted. The old
object is a variable, which may be the object of any edge. -/
theorem exists_removal {b added : Builder}
    (ran : b.edge .add subject predicate object graph = .ok added) {b₀ : Builder}
    (same : b₀.vocabulary = b.vocabulary) :
    ∃ after, b₀.removal subject predicate object graph = .ok after := by
  obtain ⟨said, parts, coerced⟩ := (exists_edge_iff .add b).1 ⟨added, ran⟩
  rw [← same] at coerced
  obtain ⟨b₁, ran₁⟩ := (exists_edge_iff .present b₀).2 ⟨said, _, coerced.old⟩
  have kept₁ : b₁.vocabulary = b₀.vocabulary := vocabulary_edge ran₁
  obtain ⟨b₂, ran₂⟩ := exists_edge ran₁ .delete kept₁
  obtain ⟨b₃, ran₃, kept₃⟩ : ∃ b₃, b₂.about .not .following = .ok b₃ ∧
    b₃.vocabulary = b₂.vocabulary := ⟨_, rfl, vocabulary_addNode .not [] b₂⟩
  have kept : b₃.vocabulary = b.vocabulary :=
    kept₃.trans ((vocabulary_edge ran₂).trans (kept₁.trans same))
  obtain ⟨after, ran₄⟩ := exists_edge ran .present kept
  exact ⟨after, bind_eq_ok_iff.2 ⟨b₁, ran₁, bind_eq_ok_iff.2 ⟨b₂, ran₂,
    bind_eq_ok_iff.2 ⟨b₃, ran₃, ran₄⟩⟩⟩⟩

/-- **An object can be replaced exactly if the new edge can be added.** -/
theorem exists_replace_iff (b : Builder) :
    (∃ after, b.replace subject predicate object graph = .ok after) ↔
      ∃ added, b.edge .add subject predicate object graph = .ok added := by
  constructor
  · rintro ⟨after, ran⟩
    obtain ⟨removal, -, ran⟩ := bind_eq_ok_iff.1 ran
    obtain ⟨optional, -, ran⟩ := bind_eq_ok_iff.1 ran
    obtain ⟨addition, ran₁, -⟩ := bind_eq_ok_iff.1 ran
    exact exists_edge ran₁ .add rfl
  · rintro ⟨added, ran⟩
    have same : b.cleared.vocabulary = b.vocabulary := rfl
    obtain ⟨removal, ran₁⟩ := exists_removal ran same
    obtain ⟨optional, ran₂⟩ : ∃ optional,
      b.cleared.about .optional (.query removal) = .ok optional := ⟨_, rfl⟩
    obtain ⟨addition, ran₃⟩ := exists_edge ran .add same
    obtain ⟨after, ran₄⟩ := exists_appendAll_query .and [optional, addition] _
    exact ⟨after, bind_eq_ok_iff.2 ⟨removal, ran₁, bind_eq_ok_iff.2 ⟨optional, ran₂,
      bind_eq_ok_iff.2 ⟨addition, ran₃, ran₄⟩⟩⟩⟩

end Builder

/-! ### The form that is sent -/

/-- An edge is of the same kind in every graph. -/
theorem EdgeKind.kind_operation (kind : EdgeKind) (named : Bool) :
    (kind.operation named).kind = (kind.operation false).kind := by
  cases kind <;> cases named <;> rfl

/-- A combination of queries that all send something. -/
theorem Tree.wire?_combination (c : Combinator) {ts : List Tree} {sent : List Json}
    (each : List.Forall₂ (fun t json => t.wire? = some json) ts sent) :
    (Tree.node (some c.kind) [(c.key, .queries ts)]).wire? = combine c sent := by
  have listed : ts.filterMap wire? = sent := by
    induction each with
    | nil => rfl
    | cons first _ ih => rw [List.filterMap_cons_some first, ih]
  have children : (Tree.node (some c.kind) [(c.key, .queries ts)]).children c.key = ts :=
    children_combination c ts
  rw [wire?_of_kind rfl, children, listed]

/-- What the conjunction of two queries writes. -/
theorem Edit.written_and_query (p q : Builder) : (Edit.and [.query p, .query q]).written =
    .ok ⟨(p.store.tree p.root).joined .and (q.store.tree q.root), none⟩ := by
  have pushed := Builder.pushAll_given .and [] (Builder.given_query .and [p, q])
  refine bind_eq_ok_iff.2 ⟨_, pushed, ?_⟩
  rw [List.nil_append, List.map_cons, List.map_singleton, List.flatMap_cons, List.flatMap_singleton]
  rfl

/-- An operation about a query and about nothing else. -/
theorem Tree.wire?_host (h : Host) {t : Tree} {json : Json} (sent : t.wire? = some json) :
    (Tree.node (some h.operation.kind) [("query", .query t)]).wire? =
      some (.obj [("@type", .str h.operation.kind), ("query", json)]) := by
  have other : ∀ c : Combinator, h.operation.kind ≠ c.kind :=
    Operation.kind_ne_combinator h.isSimple_operation
  have sorted : Dictionary.insert "@type" (.str h.operation.kind) [("query", json)] =
      [("@type", .str h.operation.kind), ("query", json)] := if_pos (by decide)
  have listed : Json.object ([("query", json)] ++ [("@type", .str h.operation.kind)]) =
      .obj (Dictionary.insert "@type" (.str h.operation.kind) [("query", json)]) :=
    object_concat [("query", json)] _ _
  rw [← sorted, ← listed]
  exact wire?_about other (List.forall_mem_nil _) sent

namespace EdgeParts

/-- What is said of an edge is sent with the parts of the edge. -/
theorem wire?_edge (parts : EdgeParts) (kind : EdgeKind) (object : Json) (graph : Option String) :
    (kind.node graph.isSome (parts.fields object graph)).wire? =
      some (parts.node (kind.operation false).kind object graph) := by
  have other := Operation.kind_ne_combinator (kind.isSimple_operation graph.isSome)
  rw [EdgeKind.node, Tree.wire?_write other (parts.fields_plain object graph),
    kind.kind_operation]
  rfl

/-- The first part of a replacement is sent with the two edges to the old object and with the one
that must not be there. -/
theorem wire?_optionalRemoval (parts : EdgeParts) (graph : Option String) :
    (Tree.optionalRemoval graph.isSome (parts.fields oldObject graph)
      (parts.fields parts.object graph)).wire? =
        some (.obj [("@type", .str "Optional"), ("query", parts.removal graph)]) := by
  have old := parts.wire?_edge .present oldObject graph
  have deleted := parts.wire?_edge .delete oldObject graph
  have new := parts.wire?_edge .present parts.object graph
  have negated := Tree.wire?_host .not new
  have removed := Tree.wire?_combination .and (.cons old (.cons deleted (.cons negated .nil)))
  exact Tree.wire?_host .optional removed

/-- A replacement is sent with both parts. -/
theorem wire_replacement (parts : EdgeParts) (graph : Option String) :
    (Tree.joined .and (.optionalRemoval graph.isSome (parts.fields oldObject graph)
      (parts.fields parts.object graph))
        (EdgeKind.add.node graph.isSome (parts.fields parts.object graph))).wire =
          parts.replacement graph := by
  rw [Tree.joined, Tree.combined_optionalRemoval, EdgeKind.combined_node]
  have both := Tree.wire?_combination .and (.cons (parts.wire?_optionalRemoval graph)
    (.cons (parts.wire?_edge .add parts.object graph) .nil))
  exact Tree.wire_of_some both

end EdgeParts

namespace Builder

variable {b : Builder} {subject predicate object : Term} {graph : Option String}
  {parts : EdgeParts}

/-- What adding an edge sends. -/
theorem wire_add (reachable : Reachable Initial b) (empty : b.isEmpty = true)
    (said : ∀ name ∈ graph, isBlank name = false)
    (coerced : parts.Coerced b.vocabulary subject predicate object) :
    (b.run (.edge .add subject predicate object graph)).map wire =
      .ok (parts.node "AddTriple" parts.object graph) := by
  have found := (edgeFields_eq_ok_iff (EdgeKind.add.operation graph.isSome)).2
    ⟨said, parts, coerced, rfl⟩
  have written := wire_perform_of_isEmpty reachable empty
    (e := .write (EdgeKind.add.operation graph.isSome) (parts.fields parts.object graph)) rfl
  rw [run_eq_perform, Call.edit, found]
  exact written.trans (congrArg Except.ok
    (Tree.wire_of_some (parts.wire?_edge .add parts.object graph)))

/-- What replacing an object sends. -/
theorem wire_replace (reachable : Reachable Initial b) (empty : b.isEmpty = true)
    (said : ∀ name ∈ graph, isBlank name = false)
    (coerced : parts.Coerced b.vocabulary subject predicate object) :
    (b.run (.replace subject predicate object graph)).map wire =
      .ok (parts.replacement graph) := by
  obtain ⟨after, ran⟩ : ∃ after, b.run (.replace subject predicate object graph) = .ok after :=
    (exists_replace_iff b).2 ((exists_edge_iff .add b).2 ⟨said, parts, coerced⟩)
  rw [run_eq_perform] at ran ⊢
  obtain ⟨e, found, -⟩ := bind_eq_ok_iff.1 ran
  obtain ⟨made, replaced, rfl⟩ := map_eq_ok_iff.1 found
  obtain ⟨old, new, found₁, found₂, optional, addition⟩ := trees_of_replacement replaced
  have fields₁ := (edgeFields_eq_ok_iff (EdgeKind.present.operation graph.isSome)).2
    ⟨said, _, coerced.old, rfl⟩
  have fields₂ := (edgeFields_eq_ok_iff (EdgeKind.add.operation graph.isSome)).2
    ⟨said, parts, coerced, rfl⟩
  obtain rfl := Except.ok.inj (found₁.symm.trans fields₁)
  obtain rfl := Except.ok.inj (found₂.symm.trans fields₂)
  have wrote := Edit.written_and_query made.1 made.2
  rw [optional, addition] at wrote
  rw [found]
  exact (wire_perform_of_isEmpty reachable empty wrote).trans
    (congrArg Except.ok (parts.wire_replacement graph))

/-- **A replacement is sent as an optional removal and an addition.** On an empty builder the object
of an edge can be replaced exactly if the edge can be added. Both then are made of the same parts,
and in a graph that is named nothing changes but that each of the four edges names it. -/
theorem replace_wire (reachable : Reachable Initial b) (empty : b.isEmpty = true)
    (subject predicate object : Term) (graph : Option String) :
    ((∃ after, b.run (.replace subject predicate object graph) = .ok after) ↔
      ∃ added, b.run (.edge .add subject predicate object graph) = .ok added) ∧
    ∀ added, b.run (.edge .add subject predicate object graph) = .ok added →
      ∃ parts : EdgeParts, parts.Coerced b.vocabulary subject predicate object ∧
        added.wire = parts.node "AddTriple" parts.object graph ∧
        (b.run (.replace subject predicate object graph)).map wire =
          .ok (parts.replacement graph) ∧
        (b.run (.replace subject predicate object none)).map wire =
          .ok (parts.replacement none) := by
  refine ⟨exists_replace_iff b, fun added ran => ?_⟩
  obtain ⟨said, parts, coerced⟩ := (exists_edge_iff .add b).1 ⟨added, ran⟩
  have sent := wire_add reachable empty said coerced
  rw [ran] at sent
  exact ⟨parts, coerced, Except.ok.inj sent, wire_replace reachable empty said coerced,
    wire_replace reachable empty nofun coerced⟩

/-- A label is replaced in a graph. -/
theorem replace_wire_label : ∃ added parts : _, fresh.isEmpty = true ∧
    fresh.run (.edge .add (.str "doc:a") (.str "label") (.int 5) (some "main")) = .ok added ∧
    parts = EdgeParts.mk (.obj [("@type", .str "NodeValue"), ("node", .str "doc:a")])
      (.obj [("@type", .str "NodeValue"), ("node", .str "rdfs:label")])
      (.obj [("@type", .str "Value"), ("data", .obj [("@type", .str "xsd:integer"),
        ("@value", .int 5)])]) ∧
    added.wire = parts.node "AddTriple" parts.object (some "main") ∧
    (fresh.run (.replace (.str "doc:a") (.str "label") (.int 5) (some "main"))).map wire =
      .ok (parts.replacement (some "main")) ∧
    (fresh.run (.replace (.str "doc:a") (.str "label") (.int 5) none)).map wire =
      .ok (parts.replacement none) := by
  have start : Reachable Initial fresh := .start (.ofVocabulary .standard)
  obtain ⟨-, sent⟩ := replace_wire start rfl (.str "doc:a") (.str "label") (.int 5) (some "main")
  obtain ⟨added, ran⟩ : ∃ added,
    fresh.run (.edge .add (.str "doc:a") (.str "label") (.int 5) (some "main")) = .ok added :=
      ⟨_, rfl⟩
  obtain ⟨parts, coerced, found, replaced, plain⟩ := sent added ran
  refine ⟨added, parts, rfl, ran, ?_, found, replaced, plain⟩
  obtain ⟨s, p, o⟩ := parts
  obtain rfl := Except.ok.inj coerced.subject
  obtain rfl := Except.ok.inj coerced.predicate
  obtain rfl := Except.ok.inj coerced.object
  rfl

end Builder

end GraphQuery
