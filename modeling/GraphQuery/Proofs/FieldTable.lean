import GraphQuery.Proofs.Legible
import GraphQuery.Proofs.Preservation
import GraphQuery.Proofs.Written

/-!
# The fields of an operation

The table of operations says of which kind the node of an operation is and which fields it has. On
an empty builder a call writes just that node, with all the fields in the table but those whose
argument is left out.

Key definitions: `Call.omitted`, `Edit.operation`, `Edit.names`.
Key theorems: `Edit.keys_written`, `Call.perm_names_edit`, `Call.exists_operation_eq`,
`Builder.run_fields`.
-/

namespace GraphQuery

/-! ### The names of the fields of a node -/

namespace Tree

/-- The names of the fields of the node. -/
def keys (t : Tree) : List String := Dictionary.keys t.fields

variable {t : Tree} {key : String}

theorem mem_keys_set {name : String} {branch : Branch Tree} :
    key ∈ (t.set name branch).keys ↔ key = name ∨ key ∈ t.keys := Dictionary.mem_keys_insert

theorem mem_keys_write {kind : String} : ∀ {given : List (String × Json)} {t : Tree},
    key ∈ (t.write kind given).keys ↔ key ∈ given.map Prod.fst ∨ key ∈ t.keys
  | [], t => by simp [write, keys, fields]
  | (name, json) :: given, t => by
    have later : key ∈ ((t.set name (.value json)).write kind given).keys ↔ _ := mem_keys_write
    rw [mem_keys_set] at later
    rw [List.map_cons, List.mem_cons, or_assoc, or_left_comm]
    exact later

/-- Adding queries to a combination adds no other field. -/
theorem mem_keys_pushAll (c : Combinator) : ∀ {qs : List SubQuery} {t after : Tree}
    {gap gap₁ : Option (Gap Tree)}, t.pushAll c gap qs = .ok (after, gap₁) → c.key ∈ t.keys →
      (key ∈ after.keys ↔ key ∈ t.keys)
  | [], _, _, _, _, ran, _ => by
    cases ran
    rfl
  | q :: qs, t, after, gap, gap₁, ran, mem => by
    rw [pushAll] at ran
    obtain ⟨given, -, ran⟩ := bind_eq_ok_iff.1 ran
    have ih := mem_keys_pushAll c ran (mem_keys_set.2 (.inl rfl))
    rw [ih, append, mem_keys_set]
    exact or_iff_right_of_imp fun same => same ▸ mem

/-- The fields of the raw form are those of the node, and its kind. -/
theorem isSome_get?_raw (noType : "@type" ∉ t.keys) (ne : key ≠ "@type") :
    (t.raw.get? key).isSome = true ↔ key ∈ t.keys := by
  obtain ⟨kind, fields⟩ := t
  have apart : ∀ field ∈ fields, field.1 ≠ "@type" := fun field mem same =>
    noType (same ▸ List.mem_map_of_mem mem)
  rw [get?_raw kind apart ne, Option.isSome_map]
  exact Dictionary.isSome_find?_iff fields

theorem get?_type_raw_of_keys (noType : "@type" ∉ t.keys) :
    t.raw.get? "@type" = t.kind.map .str := by
  obtain ⟨kind, fields⟩ := t
  exact get?_type_raw kind fun field mem same => noType (same ▸ List.mem_map_of_mem mem)

end Tree

/-! ### What edits write -/

namespace Edit

/-- The operation whose node an edit writes. -/
def operation : Edit → Operation
  | write op _ | host op _ _ => op
  | when _ _ => .when
  | and _ => .and
  | or _ => .or

/-- The names of the fields of the node that an edit writes. -/
def names : Edit → List String
  | write _ fields => fields.map Prod.fst
  | host _ fields _ => fields.map Prod.fst ++ ["query"]
  | when _ _ => ["query", "consequent"]
  | and _ => ["and"]
  | or _ => ["or"]

variable {w : Written}

theorem keys_writtenCombination {c : Combinator} {qs : List SubQuery}
    (wrote : writtenCombination c qs = .ok w) :
    w.tree.kind = some c.kind ∧ ∀ key, key ∈ w.tree.keys ↔ key ∈ [c.key] := by
  obtain ⟨⟨t, gap⟩, pushed, built⟩ := bind_eq_ok_iff.1 wrote
  cases built
  exact ⟨Tree.kind_of_pushAll c pushed, fun key =>
    Tree.mem_keys_pushAll c pushed (List.mem_singleton_self _)⟩

/-- An edit writes a node of its operation with the fields it names. -/
theorem keys_written {e : Edit} (wrote : e.written = .ok w) :
    w.tree.kind = some e.operation.kind ∧ ∀ key, key ∈ w.tree.keys ↔ key ∈ e.names := by
  cases e with
  | write op fields =>
    cases wrote
    refine ⟨rfl, fun key => Tree.mem_keys_write.trans ?_⟩
    exact or_iff_left List.not_mem_nil
  | host op fields q =>
    obtain ⟨t, -, built⟩ := bind_eq_ok_iff.1 wrote
    cases built
    refine ⟨rfl, fun key => Tree.mem_keys_set.trans ?_⟩
    rw [Tree.mem_keys_write, names, List.mem_append, List.mem_singleton, or_comm]
    exact or_congr_left (or_iff_left List.not_mem_nil)
  | when condition consequent =>
    obtain ⟨query, next, -, -, rfl⟩ := exists_of_written_when wrote
    refine ⟨rfl, fun key => ?_⟩
    have written : key ∈ (Tree.empty.write Operation.when.kind []).keys ↔ False :=
      iff_of_false nofun not_false
    rw [Tree.mem_keys_set, Tree.mem_keys_set, written, or_false, or_comm]
    simp [names]
  | and qs => exact keys_writtenCombination wrote
  | or qs => exact keys_writtenCombination wrote

end Edit

/-! ### What calls come to -/

/-- The parameters of an operation without some. -/
def Operation.parametersBut (op : Operation) (omitted : List String) : List String :=
  op.parameters.filter (· ∉ omitted)

theorem Operation.parametersBut_nil (op : Operation) : op.parametersBut [] = op.parameters :=
  List.filter_eq_self.2 fun _ _ => rfl

namespace Call

/-- The fields that a call does not write because an argument is left out: the graph of `star`, the
variable of a path, the end of a slice and the identifier of a document. -/
def omitted : Call → List String
  | star none => ["graph"]
  | path _ _ _ bound | along _ _ _ bound => if bound.isNull then ["path"] else []
  | fill .slice terms _ _ => if terms.getLast?.any Term.isNull then ["end"] else []
  | fill .insertDocument terms _ _ | fill .updateDocument terms _ _ =>
    if terms.getLast?.any Term.isNull then ["identifier"] else []
  | _ => []

theorem omitted_fill {op : Operation} (required : op.optionalField? = none) (terms : List Term)
    (slotted : op.slots ≠ []) (complete : terms.length = op.slots.length) :
    (fill op terms slotted complete).omitted = [] := by
  cases op <;> first | rfl | cases required

/-- The slots that are filled are those in the table but for one that is left out. -/
theorem names_fill (op : Operation) (terms : List Term) (slotted : op.slots ≠ [])
    (complete : terms.length = op.slots.length) :
    ((Builder.slotArguments op terms).map fun argument => argument.1.1) =
      op.parametersBut (fill op terms slotted complete).omitted := by
  by_cases required : op.optionalField? = none
  · -- No slot is dropped.
    have kept : Builder.slotArguments op terms =
        op.slots.zip (Builder.preparedArguments op terms) := by
      simp [Builder.slotArguments, required]
    rw [kept, Builder.names_zip_preparedArguments complete, omitted_fill required,
      Operation.parametersBut_nil, Operation.parameters_of_slots slotted]
  · -- The last slot is dropped if its term is null.
    have optional : op = .slice ∨ op = .insertDocument ∨ op = .updateDocument := by
      cases op <;> first | exact absurd rfl required | exact absurd rfl slotted | simp
    rcases optional with rfl | rfl | rfl
    · obtain ⟨_, _, _, last, rfl⟩ := List.length_eq_four.1 complete
      by_cases null : last.isNull <;>
        simp [Builder.slotArguments, Builder.preparedArguments, Operation.slots,
          Operation.optionalField?, omitted, Operation.parametersBut, Operation.parameters,
          Operation.row, null]
    all_goals
      obtain ⟨_, last, rfl⟩ := List.length_eq_two.1 complete
      by_cases null : last.isNull <;>
        simp [Builder.slotArguments, Builder.preparedArguments, Operation.slots,
          Operation.optionalField?, omitted, Operation.parametersBut, Operation.parameters,
          Operation.row, null]

theorem perm_star (graph : Option String) : (EdgeKind.parameters graph.isSome).Perm
    (Operation.star.parametersBut (star graph).omitted) := by
  have all : ∀ named : Bool, (EdgeKind.parameters named).Perm
      (Operation.star.parametersBut (if named then [] else ["graph"])) := by decide
  cases graph with
  | none => exact all false
  | some graph => exact all true

theorem perm_path (left : Bool) :
    (["subject", "pattern", "object"] ++ if left then [] else ["path"]).Perm
      (Operation.path.parametersBut (if left then ["path"] else [])) := by
  revert left
  decide

/-- A call that writes a node that is about no query. -/
theorem perm_names_write {op : Operation} {x : Except Error (List (String × Json))} {e : Edit}
    {names omitted : List String} (under : Yields x (Under names))
    (perm : names.Perm (op.parametersBut omitted)) (found : x.map (Edit.write op) = .ok e) :
    e.operation = op ∧ e.names.Perm (op.parametersBut omitted) := by
  obtain ⟨fields, written, rfl⟩ := map_eq_ok_iff.1 found
  refine ⟨rfl, ?_⟩
  rwa [Edit.names, under fields written]

/-- **A call that writes one node names the fields in the table** but for one that is left out. -/
theorem perm_names_edit {vocabulary : Vocabulary} {expandsPaths : Bool} {call : Call} {e : Edit}
    (single : call.operation.isComposite = false)
    (found : call.edit vocabulary expandsPaths = .ok e) : e.operation = call.operation ∧
      e.names.Perm (call.operation.parametersBut call.omitted) := by
  have all : ∀ op : Operation, op.parameters.Perm (op.parametersBut []) := fun op =>
    .of_eq op.parametersBut_nil.symm
  cases call with
  | edge kind subject predicate object graph =>
    have perm := all (kind.operation graph.isSome)
    rw [EdgeKind.parameters_operation] at perm
    exact perm_names_write (Builder.edgeFields_under _ _ _ _ _ _) perm found
  | star graph =>
    exact perm_names_write (Builder.edgeFields_under _ _ _ _ _ _) (perm_star graph) found
  | replace subject predicate object graph => cases graph <;> cases single
  | path subject pattern object bound =>
    obtain ⟨steps, -, later⟩ := bind_eq_ok_iff.1 found
    obtain ⟨fields, written, built⟩ := bind_eq_ok_iff.1 later
    exact perm_names_write (Builder.pathFields_under _ _ _ _ _) (perm_path bound.isNull)
      (map_eq_ok_iff.2 ⟨fields, written, Except.ok.inj built⟩)
  | along subject pattern object bound =>
    exact perm_names_write (Builder.pathFields_under _ _ _ _ _) (perm_path bound.isNull) found
  | size resource amount =>
    exact perm_names_write (Builder.measureFields_under _ _ _ _ _) (all .size) found
  | tripleCount resource amount =>
    exact perm_names_write (Builder.measureFields_under _ _ _ _ _) (all .tripleCount) found
  | fill op terms slotted complete =>
    have names := names_fill op terms slotted complete
    exact perm_names_write (Builder.slotFields_under _ _ _) (.of_eq names) found
  | and qs =>
    cases found
    exact ⟨rfl, all .and⟩
  | or qs =>
    cases found
    exact ⟨rfl, all .or⟩
  | about host q =>
    obtain ⟨fields, written, rfl⟩ := map_eq_ok_iff.1 found
    refine ⟨rfl, ?_⟩
    rw [Edit.names, host.fields_under vocabulary fields written, host.names_append_query]
    exact all host.operation
  | when condition consequent =>
    cases found
    exact ⟨rfl, all .when⟩
  | truth =>
    cases found
    exact ⟨rfl, all .truth⟩

/-- Every operation can be called. -/
theorem exists_operation_eq (op : Operation) : ∃ call : Call, call.operation = op := by
  by_cases slotted : op.slots = []
  · cases op with
    | triple => exact ⟨edge .present .null .null .null none, rfl⟩
    | quad => exact ⟨edge .present .null .null .null (some ""), rfl⟩
    | addedTriple => exact ⟨edge .added .null .null .null none, rfl⟩
    | addedQuad => exact ⟨edge .added .null .null .null (some ""), rfl⟩
    | removedTriple => exact ⟨edge .removed .null .null .null none, rfl⟩
    | removedQuad => exact ⟨edge .removed .null .null .null (some ""), rfl⟩
    | addTriple => exact ⟨edge .add .null .null .null none, rfl⟩
    | addQuad => exact ⟨edge .add .null .null .null (some ""), rfl⟩
    | deleteTriple => exact ⟨edge .delete .null .null .null none, rfl⟩
    | deleteQuad => exact ⟨edge .delete .null .null .null (some ""), rfl⟩
    | updateTriple => exact ⟨replace .null .null .null none, rfl⟩
    | updateQuad => exact ⟨replace .null .null .null (some ""), rfl⟩
    | star => exact ⟨star none, rfl⟩
    | path => exact ⟨path .null "" .null .null, rfl⟩
    | size => exact ⟨size "" .null, rfl⟩
    | tripleCount => exact ⟨tripleCount "" .null, rfl⟩
    | and => exact ⟨and [], rfl⟩
    | or => exact ⟨or [], rfl⟩
    | not => exact ⟨about .not .truth, rfl⟩
    | optional => exact ⟨about .optional .truth, rfl⟩
    | once => exact ⟨about .once .truth, rfl⟩
    | immediately => exact ⟨about .immediately .truth, rfl⟩
    | when => exact ⟨when .truth .truth, rfl⟩
    | select => exact ⟨about (.select []) .truth, rfl⟩
    | distinct => exact ⟨about (.distinct []) .truth, rfl⟩
    | limit => exact ⟨about (.limit 0) .truth, rfl⟩
    | start => exact ⟨about (.start 0) .truth, rfl⟩
    | orderBy => exact ⟨about (.orderBy []) .truth, rfl⟩
    | groupBy => exact ⟨about (.groupBy [] .null .null) .truth, rfl⟩
    | count => exact ⟨about (.count .null) .truth, rfl⟩
    | fromGraph => exact ⟨about (.fromGraph "") .truth, rfl⟩
    | intoGraph => exact ⟨about (.intoGraph "") .truth, rfl⟩
    | usingCollection => exact ⟨about (.usingCollection "") .truth, rfl⟩
    | comment => exact ⟨about (.comment "") .truth, rfl⟩
    | truth => exact ⟨truth, rfl⟩
    | _ => cases slotted
  · exact ⟨fill op (List.replicate op.slots.length .null) slotted List.length_replicate, rfl⟩

end Call

/-! ### Calls on an empty builder -/

theorem Operation.type_not_mem_parameters (op : Operation) : "@type" ∉ op.parameters := by
  cases op <;> decide

/-- A query inside a node is not the whole query. -/
theorem Tree.within_ne_empty {frames : List (Frame Tree)} (some : frames ≠ []) (t : Tree) :
    t.within frames ≠ .empty := by
  obtain ⟨inner, frame, rfl⟩ := List.eq_nil_or_concat frames |>.resolve_left some
  intro same
  have fields : frame.filled (t.within inner) = [] := by
    rw [List.concat_eq_append, within, List.foldl_concat] at same
    exact congrArg Tree.fields same
  have found := Dictionary.find?_insert_self frame.key (frame.gap.fill (t.within inner))
    frame.fields
  rw [Frame.filled] at fields
  rw [fields] at found
  cases found

/-- A sketch of the empty query is the one that a new builder has. -/
theorem Sketch.eq_blank {k : Sketch} (empty : k.tree = .empty) :
    k = blank k.vocabulary k.expandsPaths := by
  obtain ⟨frames, conjunction, focus, vocabulary, expandsPaths⟩ := k
  cases conjunction with
  | some fields => exact absurd empty (Tree.within_ne_empty (List.cons_ne_nil _ _) focus)
  | none =>
    cases frames with
    | nil => rw [show focus = .empty from empty]; rfl
    | cons frame frames =>
      exact absurd empty (Tree.within_ne_empty (List.cons_ne_nil _ _) focus)

namespace Builder

theorem tree_of_isEmpty {b : Builder} (empty : b.isEmpty = true) :
    b.store.tree b.root = .empty := by
  obtain ⟨kind, fields⟩ : (b.store.node b.root).kind = none ∧
      (b.store.node b.root).fields = [] := by
    simpa [isEmpty, Node.isEmpty] using empty
  unfold Store.tree
  cases b.store.nodes.size with
  | zero => rfl
  | succ depth =>
    rw [Store.treeTo, kind, fields]
    rfl

variable {b after : Builder} {call : Call}

/-- **On an empty builder a call writes the node of its operation with the fields in the table**,
each of them unless its argument is left out. -/
theorem run_fields (reachable : Reachable Initial b) (empty : b.isEmpty = true)
    (single : call.operation.isComposite = false) (ran : b.run call = .ok after) :
    after.raw.get? "@type" = some (.str call.operation.kind) ∧ ∀ key, key ≠ "@type" →
      ((after.raw.get? key).isSome = true ↔
        key ∈ call.operation.parameters ∧ key ∉ call.omitted) := by
  obtain ⟨k, realizes⟩ := realizes_of_reachable reachable
  have start := Sketch.eq_blank (realizes.tree_eq.symm.trans (tree_of_isEmpty empty))
  rw [start] at realizes
  rw [run_eq_perform] at ran
  obtain ⟨e, found, ran⟩ := bind_eq_ok_iff.1 ran
  obtain ⟨k₁, ran₁, realizes₁⟩ := (ran ▸ realizes.perform e).exists_right
  rw [Sketch.perform_blank] at ran₁
  obtain ⟨w, wrote, rfl⟩ := map_eq_ok_iff.1 ran₁
  have tree : after.raw = w.tree.raw := by
    rw [realizes₁.raw_eq, Sketch.tree_put fun _ _ => Edit.open_written wrote]
    rfl
  obtain ⟨kind, keys⟩ := Edit.keys_written wrote
  obtain ⟨same, perm⟩ := Call.perm_names_edit single found
  have listed : ∀ key, key ∈ w.tree.keys ↔
      key ∈ call.operation.parameters ∧ key ∉ call.omitted := by
    intro key
    rw [keys, perm.mem_iff, Operation.parametersBut, List.mem_filter, decide_eq_true_iff]
  have noType : "@type" ∉ w.tree.keys := fun mem =>
    call.operation.type_not_mem_parameters ((listed _).1 mem).1
  rw [tree, Tree.get?_type_raw_of_keys noType, kind, same]
  exact ⟨rfl, fun key ne => (Tree.isSome_get?_raw noType ne).trans (listed key)⟩

/-- A slice without an end. -/
theorem run_fields_slice : ∃ call after, fresh.run call = .ok after ∧ fresh.isEmpty = true ∧
    call.operation = .slice ∧ call.omitted = ["end"] ∧
    after.raw.get? "@type" = some (.str call.operation.kind) ∧ ∀ key, key ≠ "@type" →
      ((after.raw.get? key).isSome = true ↔
        key ∈ call.operation.parameters ∧ key ∉ call.omitted) :=
  ⟨.fill .slice [.str "v:List", .str "v:Part", .int 0, .null] nofun rfl, _, rfl, rfl, rfl, rfl,
    run_fields (.start (.ofVocabulary .standard)) rfl rfl rfl⟩

end Builder

end GraphQuery
