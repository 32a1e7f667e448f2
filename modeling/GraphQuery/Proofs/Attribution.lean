import GraphQuery.Proofs.Preservation

/-!
# What an error names

A parameter error names an operation and a field. Everything that a call computes blames the
operation of the call and one of its parameters. A replacement is put together from other
operations, and an error in it names the one that finds the old edge.

Key definitions: `Blames`, `Operation.reported`.
Key theorems: `Builder.edgeFields_agnostic`, `Host.blames_fields`, `Builder.run_blames`.
-/

namespace GraphQuery

variable {α β : Type}

/-- A parameter error of a computation names an operation and one of the given fields. -/
def Blames (op : Operation) (fields : List String) (x : Except Error α) : Prop :=
  ∀ operation field fault, x = .error (.parameter operation field fault) →
    operation = op.name ∧ field ∈ fields

theorem blames_iff {op : Operation} {fields : List String} {x : Except Error α} :
    Blames op fields x ↔ FailsOnly (fun e => ∀ operation field fault,
      e = .parameter operation field fault → operation = op.name ∧ field ∈ fields) x := by
  constructor
  · rintro h e failed operation field fault rfl
    exact h operation field fault failed
  · exact fun h operation field fault failed => h _ failed operation field fault rfl

namespace Blames

variable {op : Operation} {fields : List String} {x : Except Error α}

theorem ok {a : α} : Blames op fields (.ok a) := blames_iff.2 .ok

theorem of_ok {a : α} (succeeds : x = .ok a) : Blames op fields x := by
  rw [succeeds]
  exact .ok

theorem error {field : String} (fault : ParameterFault) (mem : field ∈ fields) :
    Blames op fields (.error (.parameter op.name field fault) : Except Error α) := by
  refine blames_iff.2 (.error fun operation field₁ fault₁ same => ?_)
  cases same
  exact ⟨rfl, mem⟩

theorem bind {f : α → Except Error β} (h : Blames op fields x)
    (h₁ : ∀ a, x = .ok a → Blames op fields (f a)) : Blames op fields (x >>= f) :=
  blames_iff.2 ((blames_iff.1 h).bind fun a succeeds => blames_iff.1 (h₁ a succeeds))

theorem map {f : α → β} (h : Blames op fields x) : Blames op fields (x.map f) :=
  blames_iff.2 (blames_iff.1 h).map

theorem mapM {f : α → Except Error β} {as : List α} (each : ∀ a ∈ as, Blames op fields (f a)) :
    Blames op fields (as.mapM f) :=
  blames_iff.2 (.mapM fun a mem => blames_iff.1 (each a mem))

end Blames

/-! ### Arguments -/

namespace Position

variable (op : Operation) {field : String} {fields : List String} (mem : field ∈ fields)

include mem

theorem blames_fill (vocabulary : Vocabulary) (slot : Slot) (target : Option String)
    (term : Term) :
    Blames op fields ((⟨op.name, field⟩ : Position).fill vocabulary slot target term) := by
  refine .map ?_
  unfold filling
  cases GraphQuery.fill vocabulary slot target term with
  | error fault => exact .error (.slot fault) mem
  | ok filled => exact .ok

theorem blames_reference (vocabulary : Vocabulary) (label : String) (term : Term) :
    Blames op fields ((⟨op.name, field⟩ : Position).reference vocabulary label term) := by
  unfold reference
  split
  · exact blames_fill op mem _ _ _ _
  · exact blames_fill op mem _ _ _ _
  · exact blames_fill op mem _ _ _ _
  · exact .error _ mem

theorem blames_variableNames (terms : List Term) :
    Blames op fields ((⟨op.name, field⟩ : Position).variableNames terms) := by
  refine .map (.mapM fun term _ => ?_)
  unfold variableName
  split
  · exact .ok
  · exact .ok
  · exact .error _ mem

theorem blames_nonBlank (text : String) :
    Blames op fields ((⟨op.name, field⟩ : Position).nonBlank text) := by
  unfold nonBlank
  by_cases blank : isBlank text
  · rw [if_pos blank]
    exact .error _ mem
  · rw [if_neg blank]
    exact .ok

end Position

/-! ### Statements -/

namespace Builder

variable (vocabulary : Vocabulary)

theorem blames_edgeParts (op : Operation) {fields : List String}
    (sub : ["subject", "predicate", "object"] ⊆ fields) (subject predicate object : Term) :
    Blames op fields (edgeParts vocabulary op subject predicate object) := by
  have first : "subject" ∈ fields := sub (by decide)
  have second : "predicate" ∈ fields := sub (by decide)
  have third : "object" ∈ fields := sub (by decide)
  exact (Position.blames_reference op first _ _ _).bind fun _ _ =>
    (Position.blames_reference op second _ _ _).bind fun _ _ =>
      (Position.blames_fill op third _ _ _ _).bind fun _ _ => .ok

theorem blames_edgeFields (op : Operation) {fields : List String} (graph : Option String)
    (sub : EdgeKind.parameters graph.isSome ⊆ fields) (subject predicate object : Term) :
    Blames op fields (edgeFields vocabulary op subject predicate object graph) := by
  have parts := blames_edgeParts vocabulary op (fun _ mem => sub (List.mem_append_left _ mem))
    subject predicate object
  cases graph with
  | none => exact parts
  | some graph =>
    simp only [edgeFields]
    by_cases blank : isBlank graph
    · rw [if_pos blank]
      exact .error _ (sub (by decide : "graph" ∈ EdgeKind.parameters true))
    · rw [if_neg blank]
      exact parts.bind fun _ _ => .ok

theorem blames_edge (kind : EdgeKind) (subject predicate object : Term) (graph : Option String)
    (b : Builder) : Blames (kind.operation graph.isSome) (EdgeKind.parameters graph.isSome)
      (b.edge kind subject predicate object graph) :=
  (blames_edgeFields b.vocabulary _ graph (List.Subset.refl _) _ _ _).bind fun _ _ => .ok

theorem blames_star (graph : Option String) (b : Builder) :
    Blames .star Operation.star.parameters (b.star graph) := by
  have sub : EdgeKind.parameters graph.isSome ⊆ Operation.star.parameters := by
    cases graph.isSome <;> decide
  exact (blames_edgeFields b.vocabulary .star graph sub _ _ _).bind fun _ _ => .ok

theorem blames_pathFields (subject : Term) (pattern : Pattern) (object path : Term) :
    Blames .path Operation.path.parameters
      (pathFields vocabulary subject pattern object path) := by
  refine (Position.blames_reference .path (by decide) _ _ _).bind fun _ _ =>
    (Position.blames_fill .path (by decide) _ _ _ _).bind fun _ _ => .bind ?_ fun _ _ => .ok
  unfold optionalArgument
  by_cases null : path.isNull
  · rw [if_pos null]
    exact .ok
  · rw [if_neg null]
    exact (Position.blames_fill .path (by decide) _ _ _ _).map

theorem blames_along (subject : Term) (pattern : Pattern) (object path : Term) (b : Builder) :
    Blames .path Operation.path.parameters (b.along subject pattern object path) :=
  (blames_pathFields b.vocabulary subject _ object path).bind fun _ _ => .ok

/-- A pattern that is no path is an error of another sort. -/
theorem blames_path (subject : Term) (pattern : String) (object path : Term) (b : Builder) :
    Blames .path Operation.path.parameters (b.path subject pattern object path) := by
  refine .bind ?_ fun pattern _ => blames_along subject pattern object path b
  cases Pattern.compile pattern with
  | error e => exact nofun
  | ok pattern => exact .ok

theorem blames_measure (op : Operation) {field : String}
    (sub : ["resource", field] ⊆ op.parameters) (resource : String) (amount : Term) (b : Builder) :
    Blames op op.parameters (b.measure op field resource amount) := by
  have first : "resource" ∈ op.parameters := sub (by simp)
  have second : field ∈ op.parameters := sub (by simp)
  refine .bind ?_ fun _ _ => .ok
  exact (Position.blames_nonBlank op first _).bind fun _ _ =>
    (Position.blames_fill op second _ _ _ _).bind fun _ _ => .ok

theorem blames_fill {op : Operation} (slotted : op.slots ≠ []) (terms : List Term) (b : Builder) :
    Blames op op.parameters (b.fill op terms) := by
  refine .bind (.mapM fun argument mem => .map ?_) fun _ _ => .ok
  have listed : argument.1 ∈ op.slots := (List.of_mem_zip (List.mem_of_mem_filter mem)).1
  have named : argument.1.1 ∈ op.parameters := by
    rw [Operation.parameters_of_slots slotted]
    exact List.mem_map_of_mem listed
  exact Position.blames_fill op named _ _ _ _

end Builder

/-! ### Sub-queries -/

namespace Host

theorem query_mem_parameters (h : Host) : "query" ∈ h.operation.parameters := by
  rw [← h.names_append_query]
  exact List.mem_append_right _ (List.mem_singleton_self _)

theorem blames_nonBlankField (h : Host) {field : String} {fields : List String}
    (mem : field ∈ fields) (text : String) :
    Blames h.operation fields (h.nonBlankField field text) :=
  (Position.blames_nonBlank _ mem _).map

theorem blames_variablesField (h : Host) {field : String} {fields : List String}
    (mem : field ∈ fields) (terms : List Term) :
    Blames h.operation fields (h.variablesField field terms) :=
  (Position.blames_variableNames _ mem _).map

theorem blames_fields (vocabulary : Vocabulary) (h : Host) :
    Blames h.operation h.operation.parameters (h.fields vocabulary) := by
  cases h with
  | not | optional | once | immediately | limit | start | comment => exact .ok
  | select terms =>
    have mem : "variables" ∈ Operation.select.parameters := by decide
    exact blames_variablesField (.select terms) mem terms
  | distinct terms =>
    have mem : "variables" ∈ Operation.distinct.parameters := by decide
    exact blames_variablesField (.distinct terms) mem terms
  | orderBy keys =>
    have mem : "ordering" ∈ Operation.orderBy.parameters := by decide
    simp only [fields]
    by_cases none : keys.isEmpty
    · rw [if_pos none]
      exact .error _ mem
    · rw [if_neg none]
      exact .ok
  | groupBy terms template grouped =>
    have first : "group_by" ∈ Operation.groupBy.parameters := by decide
    have second : "template" ∈ Operation.groupBy.parameters := by decide
    have third : "grouped" ∈ Operation.groupBy.parameters := by decide
    exact (blames_variablesField _ first terms).bind fun _ _ =>
      (blames_variablesField _ second _).bind fun _ _ =>
        (Position.blames_fill _ third _ _ _ _).bind fun _ _ => .ok
  | count amount =>
    have mem : "count" ∈ Operation.count.parameters := by decide
    exact (Position.blames_fill _ mem _ _ _ _).map
  | fromGraph graph =>
    have mem : "graph" ∈ Operation.fromGraph.parameters := by decide
    exact blames_nonBlankField (.fromGraph graph) mem graph
  | intoGraph graph =>
    have mem : "graph" ∈ Operation.intoGraph.parameters := by decide
    exact blames_nonBlankField (.intoGraph graph) mem graph
  | usingCollection collection =>
    have mem : "collection" ∈ Operation.usingCollection.parameters := by decide
    exact blames_nonBlankField (.usingCollection collection) mem collection

end Host

namespace Builder

theorem blames_storeQuery (op : Operation) {field : String} {fields : List String}
    (mem : field ∈ fields) (b : Builder) (q : SubQuery) :
    Blames op fields (b.storeQuery op field q) := by
  cases q with
  | following | query | truth => exact .ok
  | json value =>
    cases value with
    | obj fields => exact .ok
    | _ => exact .error _ mem

theorem blames_about (h : Host) (q : SubQuery) (b : Builder) :
    Blames h.operation h.operation.parameters (b.about h q) :=
  (h.blames_fields b.vocabulary).bind fun _ _ =>
    (blames_storeQuery _ h.query_mem_parameters _ q).bind fun _ _ => .ok

theorem blames_when (condition consequent : SubQuery) (b : Builder) :
    Blames .when Operation.when.parameters (b.when condition consequent) := by
  unfold when
  by_cases both : condition.isFollowing && consequent.isFollowing
  · rw [if_pos both]
    exact .error _ (by decide)
  · rw [if_neg both]
    exact (blames_storeQuery .when (by decide) _ _).bind fun _ _ =>
      (blames_storeQuery .when (by decide) _ _).bind fun _ _ => .ok

theorem blames_pushAll (c : Combinator) (host : Handle) : ∀ (qs : List SubQuery)
    (chained : Option Handle) (b : Builder),
    Blames c.operation c.operation.parameters (b.pushAll c host chained qs)
  | [], _, _ => .ok
  | q :: qs, _, b => by
    have mem : c.key ∈ c.operation.parameters := by
      cases c <;> decide
    exact (blames_storeQuery c.operation mem b q).bind fun _ _ => blames_pushAll c host qs _ _

theorem blames_appendAll (c : Combinator) (qs : List SubQuery) (b : Builder) :
    Blames c.operation c.operation.parameters (b.appendAll c qs) :=
  (blames_pushAll c _ qs _ b).bind fun _ _ => .ok

end Builder

/-! ### Replacing an object -/

namespace Position

variable {p : Position}

theorem fill_agnostic {vocabulary : Vocabulary} {slot : Slot} {target : Option String}
    {term : Term} {json : Json} (found : p.fill vocabulary slot target term = .ok json)
    (p₁ : Position) : p₁.fill vocabulary slot target term = .ok json := by
  obtain ⟨filled, found, same⟩ := map_eq_ok_iff.1 found
  exact map_eq_ok_iff.2 ⟨filled, mapError_eq_ok_iff.2 (mapError_eq_ok_iff.1 found), same⟩

theorem reference_agnostic {vocabulary : Vocabulary} {label : String} {term : Term} {json : Json}
    (found : p.reference vocabulary label term = .ok json) (p₁ : Position) :
    p₁.reference vocabulary label term = .ok json := by
  unfold reference at found
  split at found
  · exact fill_agnostic found p₁
  · exact fill_agnostic found p₁
  · exact fill_agnostic found p₁
  · cases found

end Position

namespace Builder

variable {b after : Builder}

/-- What an edge is made of does not depend on what is said of it. -/
theorem edgeFields_agnostic {vocabulary : Vocabulary} {op : Operation}
    {subject predicate object : Term} {graph : Option String} {fields : List (String × Json)}
    (found : edgeFields vocabulary op subject predicate object graph = .ok fields)
    (op₁ : Operation) :
    edgeFields vocabulary op₁ subject predicate object graph = .ok fields := by
  have parts : ∀ {parts}, edgeParts vocabulary op subject predicate object = .ok parts →
      edgeParts vocabulary op₁ subject predicate object = .ok parts := by
    intro parts found
    obtain ⟨first, found₁, found⟩ := bind_eq_ok_iff.1 found
    obtain ⟨second, found₂, found⟩ := bind_eq_ok_iff.1 found
    obtain ⟨third, found₃, same⟩ := bind_eq_ok_iff.1 found
    refine bind_eq_ok_iff.2 ⟨first, Position.reference_agnostic found₁ _, ?_⟩
    refine bind_eq_ok_iff.2 ⟨second, Position.reference_agnostic found₂ _, ?_⟩
    exact bind_eq_ok_iff.2 ⟨third, Position.fill_agnostic found₃ _, same⟩
  cases graph with
  | none => exact parts found
  | some graph =>
    simp only [edgeFields] at found ⊢
    by_cases blank : isBlank graph
    · rw [if_pos blank] at found
      cases found
    · rw [if_neg blank] at found ⊢
      obtain ⟨given, found, same⟩ := bind_eq_ok_iff.1 found
      exact bind_eq_ok_iff.2 ⟨given, parts found, same⟩

theorem vocabulary_conjoin (b : Builder) : b.conjoin.vocabulary = b.vocabulary := by
  unfold conjoin openConjunction
  cases b.conjunction.filter b.isLastOf with
  | some conjunction => rfl
  | none => by_cases conjunction : b.here.isKind "And" <;> simp [conjunction, wrap]

theorem vocabulary_addNode (op : Operation) (fields : List (String × Json)) (b : Builder) :
    (b.addNode op fields).vocabulary = b.vocabulary := by
  unfold addNode
  by_cases taken : b.here.kind.isSome
  · rw [if_pos taken]
    exact vocabulary_conjoin b
  · rw [if_neg taken]
    rfl

theorem vocabulary_edge {kind : EdgeKind} {subject predicate object : Term}
    {graph : Option String} (ran : b.edge kind subject predicate object graph = .ok after) :
    after.vocabulary = b.vocabulary := by
  obtain ⟨fields, -, same⟩ := bind_eq_ok_iff.1 ran
  cases same
  exact vocabulary_addNode _ _ _

/-- Where something can be said of an edge, anything can. -/
theorem exists_edge {kind : EdgeKind} {subject predicate object : Term} {graph : Option String}
    (ran : b.edge kind subject predicate object graph = .ok after) (kind₁ : EdgeKind)
    {b₁ : Builder} (same : b₁.vocabulary = b.vocabulary) :
    ∃ after₁, b₁.edge kind₁ subject predicate object graph = .ok after₁ := by
  obtain ⟨fields, found, -⟩ := bind_eq_ok_iff.1 ran
  rw [← same] at found
  exact ⟨_, bind_eq_ok_iff.2 ⟨fields, edgeFields_agnostic found _, rfl⟩⟩

theorem blames_removal (subject predicate object : Term) (graph : Option String) (b : Builder) :
    Blames (EdgeKind.present.operation graph.isSome) (EdgeKind.parameters graph.isSome)
      (b.removal subject predicate object graph) := by
  refine (blames_edge .present _ _ _ graph b).bind fun b₁ ran₁ => ?_
  -- The edge to delete is the one that was found.
  obtain ⟨b₂, ran₂⟩ := exists_edge ran₁ .delete (vocabulary_edge ran₁)
  exact .bind (.of_ok ran₂) fun _ _ => .bind (.of_ok rfl) fun _ _ =>
    blames_edge .present _ _ _ graph _

/-- What deletes the old object speaks of the new one last. -/
theorem edge_of_removal {subject predicate object : Term} {graph : Option String}
    (ran : b.removal subject predicate object graph = .ok after) :
    ∃ b₁ : Builder, b₁.vocabulary = b.vocabulary ∧
      b₁.edge .present subject predicate object graph = .ok after := by
  obtain ⟨b₁, ran₁, ran⟩ := bind_eq_ok_iff.1 ran
  obtain ⟨b₂, ran₂, ran⟩ := bind_eq_ok_iff.1 ran
  obtain ⟨b₃, ran₃, ran⟩ := bind_eq_ok_iff.1 ran
  cases ran₃
  refine ⟨_, ?_, ran⟩
  exact (vocabulary_addNode .not [] b₂).trans ((vocabulary_edge ran₂).trans (vocabulary_edge ran₁))

/-- What builders made can be added to a combination. -/
theorem exists_appendAll_query (c : Combinator) (parts : List Builder) (b : Builder) :
    ∃ after, b.appendAll c (parts.map .query) = .ok after :=
  ⟨_, bind_eq_ok_iff.2 ⟨_, pushAll_query c _ none parts b, rfl⟩⟩

/-- A replacement fails where it looks for the edge that is there, with the old object or with the
new one. -/
theorem blames_replace (subject predicate object : Term) (graph : Option String) (b : Builder) :
    Blames (EdgeKind.present.operation graph.isSome) (EdgeKind.parameters graph.isSome)
      (b.replace subject predicate object graph) := by
  refine (blames_removal subject predicate object graph b.cleared).bind fun removal ran => ?_
  -- The edge to add is the last one that the removal speaks of, so it is in order as well.
  obtain ⟨b₁, same, ran₁⟩ := edge_of_removal ran
  obtain ⟨addition, ran₂⟩ := exists_edge ran₁ .add same.symm
  refine .bind (.of_ok rfl) fun optional _ => .bind (.of_ok ran₂) fun addition _ => ?_
  obtain ⟨after, ran₃⟩ := exists_appendAll_query .and [optional, addition] _
  exact .of_ok ran₃

end Builder

/-! ### Calls -/

/-- The operation that errors of an operation name. -/
def Operation.reported : Operation → Operation
  | updateTriple => .triple
  | updateQuad => .quad
  | op => op

namespace Operation

/-- Only those made of several nodes do not name themselves. -/
theorem reported_eq_self_iff (op : Operation) : op.reported = op ↔ op.isComposite = false := by
  cases op <;> decide

end Operation

namespace Builder

/-- What a call that writes one node computes blames the call. -/
theorem blames_single (b : Builder) {call : Call} (single : call.operation.isComposite = false) :
    Blames call.operation call.operation.parameters (b.run call) := by
  cases call with
  | edge kind subject predicate object graph =>
    rw [Call.operation, EdgeKind.parameters_operation]
    exact blames_edge kind subject predicate object graph b
  | star graph => exact blames_star graph b
  | replace subject predicate object graph => cases graph <;> cases single
  | path subject pattern object path => exact blames_path subject pattern object path b
  | along subject pattern object path => exact blames_along subject pattern object path b
  | size resource amount => exact blames_measure .size (by decide) resource amount b
  | tripleCount resource amount => exact blames_measure .tripleCount (by decide) resource amount b
  | fill op terms slotted complete => exact blames_fill slotted terms b
  | and qs => exact blames_appendAll .and qs _
  | or qs => exact blames_appendAll .or qs _
  | about host q => exact blames_about host q b
  | when condition consequent => exact blames_when condition consequent b
  | truth => exact .ok

theorem blames_run (b : Builder) (call : Call) :
    Blames call.operation.reported call.operation.parameters (b.run call) := by
  rcases single_or_replace call with single | ⟨subject, predicate, object, graph, rfl⟩
  · rw [(Operation.reported_eq_self_iff _).2 single]
    exact blames_single b single
  · have blames := blames_replace subject predicate object graph b
    cases graph <;> exact blames

/-- **A parameter error of a call names the operation of the call and one of its parameters**, but
for a replacement, whose errors name the operation that looks for an edge. -/
theorem run_blames {b : Builder} {call : Call} {operation field : String} {fault : ParameterFault}
    (failed : b.run call = .error (.parameter operation field fault)) :
    operation = call.operation.reported.name ∧ field ∈ call.operation.parameters :=
  blames_run b call operation field fault failed

/-- A replacement whose subject is a number. -/
theorem run_blames_replace :
    fresh.run (.replace (.int 1) (.str "name") (.str "Bob") none) =
      .error (.parameter "triple" "subject" (.notIdentifier "Subject")) ∧
    "triple" = Operation.updateTriple.reported.name ∧
    "subject" ∈ Operation.updateTriple.parameters :=
  have failed : fresh.run (.replace (.int 1) (.str "name") (.str "Bob") none) =
      .error (.parameter "triple" "subject" (.notIdentifier "Subject")) := rfl
  ⟨failed, run_blames failed⟩

/-- An error of a replacement does not name the replacement. -/
theorem run_blames_other : ∃ call operation field fault,
    fresh.run call = .error (.parameter operation field fault) ∧
    operation ≠ call.operation.name :=
  ⟨.replace (.int 1) (.str "name") (.str "Bob") none, "triple", "subject", .notIdentifier "Subject",
    rfl, by decide⟩

end Builder

end GraphQuery
