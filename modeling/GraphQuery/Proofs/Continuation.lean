import GraphQuery.Proofs.Rereading

/-!
# Going on with a finished query

A builder can go on with an object. A call that is about no query and combines none writes after
what the object is: a conjunction gets one more query, and any other query with a kind becomes the
first of a conjunction. An object without a kind counts as a node that is not written yet, so the
next node is written over it, and its other fields stay.

Key definitions: `Json.Conjoins`, `Call.isStatement`.
Key theorems: `Tree.Legible.map_raw_children`, `Sketch.tree_write`, `Builder.ofJson_run`.
-/

namespace GraphQuery

/-- The queries that a query with a kind is a conjunction of. A conjunction with something else
than a list of queries is one of nothing known. -/
inductive Json.Conjoins (r : Json) : List Json → Prop where
  | other {kind : String} : r.kind? = some kind → kind ≠ "And" → Conjoins r [r]
  | listed {items : List Json} : r.kind? = some "And" → r.get? "and" = some (.arr items) →
    items.all isObject = true → Conjoins r items
  | unlisted : r.kind? = some "And" → r.get? "and" = none → Conjoins r []

/-- A call that is about no query and combines none. -/
def Call.isStatement : Call → Bool
  | and _ | or _ | about _ _ | when _ _ => false
  | _ => true

namespace Tree

/-! ### The raw form, field by field -/

variable {t : Tree}

theorem Legible.get?_type_raw (h : t.Legible) : t.raw.get? "@type" = t.kind.map .str := by
  obtain ⟨kind, fields⟩ := t
  have fits : ∀ field ∈ fields, Fits kind field := h.fits
  exact Tree.get?_type_raw kind fun field mem => (fits field mem).ne_type

theorem Legible.kind?_raw (h : t.Legible) : t.raw.kind? = t.kind := by
  obtain ⟨kind, fields⟩ := t
  have fits : ∀ field ∈ fields, Fits kind field := h.fits
  exact kindOf_withKind kind (rawFields_ne_type fun field mem => (fits field mem).ne_type)

theorem Legible.get?_raw (h : t.Legible) {key : String} (ne : key ≠ "@type") :
    t.raw.get? key = (t.fields.find? key).map rawBranch := by
  obtain ⟨kind, fields⟩ := t
  have fits : ∀ field ∈ fields, Fits kind field := h.fits
  exact Tree.get?_raw kind (fun field mem => (fits field mem).ne_type) ne

/-- Where sub-queries stand, a list of objects is one of queries. -/
theorem Fits.exists_queries {kind : Option String} {key : String} {branch : Branch Tree}
    {items : List Json} (fits : Fits kind (key, branch)) (holds : holdsQueries kind key = true)
    (list : rawBranch branch = .arr items) (objects : items.all Json.isObject = true) :
    ∃ qs, branch = .queries qs ∧ qs.map raw = items := by
  cases branch with
  | value json =>
    obtain rfl : json = .arr items := list
    have plain : ofField kind key (.arr items) = .value (.arr items) := fits.2
    rw [ofField_arr holds objects] at plain
    cases plain
  | query q =>
    cases q
    cases list
  | queries qs => exact ⟨qs, rfl, (rawAll_eq_map qs).symm.trans (Json.arr.inj list)⟩

/-- The conjunction that a query is, or that it is put into, has the queries that its raw form is
a conjunction of. -/
theorem Legible.map_raw_children (h : t.Legible) {items : List Json}
    (conjoins : t.raw.Conjoins items) :
    t.kind.isSome = true ∧ (t.conjoined.children "and").map raw = items := by
  cases conjoins with
  | other typed other =>
    rw [h.kind?_raw] at typed
    have notAnd : t.kind ≠ some "And" := by
      rw [typed]
      exact fun same => other (Option.some.inj same)
    have listed : Tree.children "and" (.node (some "And") [("and", .queries [t])]) = [t] :=
      children_combination .and [t]
    rw [Tree.conjoined, if_neg notAnd, listed, typed]
    exact ⟨rfl, rfl⟩
  | listed typed list objects =>
    rw [h.kind?_raw] at typed
    rw [h.get?_raw (by decide)] at list
    obtain ⟨branch, found, list⟩ := Option.map_eq_some_iff.1 list
    have fits := h.fits _ (Dictionary.mem_of_find? found)
    rw [typed] at fits
    obtain ⟨qs, rfl, same⟩ := fits.exists_queries (holdsQueries_combinator .and) list objects
    rw [Tree.conjoined, if_pos typed, Tree.children, Branch.children, found, typed]
    exact ⟨rfl, same⟩
  | unlisted typed none =>
    rw [h.kind?_raw] at typed
    rw [h.get?_raw (by decide)] at none
    have absent : t.fields.find? "and" = .none := Option.map_eq_none_iff.1 none
    rw [Tree.conjoined, if_pos typed, Tree.children, Branch.children, absent, typed]
    exact ⟨rfl, rfl⟩

theorem append_append (key : String) (first second : List Tree) (t : Tree) :
    (t.append key first).append key second = t.append key (first ++ second) := by
  rw [append, children_append, append, set_set, append, List.append_assoc]

theorem get?_raw_append {key : String} (ne : key ≠ "@type") {added : List Tree}
    (h : (t.append key added).Legible) :
    (t.append key added).raw.get? key =
      some (.arr ((t.children key).map raw ++ added.map raw)) := by
  have field : (t.append key added).fields.find? key =
      some (.queries (t.children key ++ added)) := Dictionary.find?_insert_self _ _ _
  rw [h.get?_raw ne, field, Option.map_some, rawBranch, rawAll_eq_map, List.map_append]

/-- A node that is written over another keeps the fields that it does not write. -/
theorem get?_raw_write (h : t.Legible) {kind : String} {given : List (String × Json)}
    (written : (t.write kind given).Legible) (alone : (Tree.empty.write kind given).Legible)
    (key : String) : (t.write kind given).raw.get? key =
      ((Tree.empty.write kind given).raw.get? key).or (t.raw.get? key) := by
  by_cases type : key = "@type"
  · rw [type, written.get?_type_raw, alone.get?_type_raw]
    rfl
  · rw [written.get?_raw type, alone.get?_raw type, h.get?_raw type]
    show (Dictionary.find? key (Branch.withValues given t.fields)).map rawBranch = _
    rw [Branch.find?_withValues, Option.map_or]
    rfl

end Tree

namespace Sketch

/-! ### Statements after a query -/

variable (vocabulary : Vocabulary) (expandsPaths : Bool)

/-- A node that is written after a query is the last of a conjunction. -/
theorem tree_write {t : Tree} (taken : t.kind.isSome = true) (op : Operation)
    (fields : List (String × Json)) :
    ({ blank vocabulary expandsPaths with focus := t }.write op fields).tree =
      t.conjoined.append "and" [((blank vocabulary expandsPaths).write op fields).tree] := by
  have kind := t.conjoined_kind
  rw [write_eq_free]
  have free : Sketch.free { blank vocabulary expandsPaths with focus := t } =
      Sketch.conjoin { blank vocabulary expandsPaths with focus := t } := by
    rw [Sketch.free, if_pos taken]
  rw [free]
  have opened : Sketch.openConjunction { blank vocabulary expandsPaths with focus := t } =
      t.conjoined := rfl
  rw [Sketch.conjoin, opened]
  cases conjoined : t.conjoined with
  | node kind₁ fields₁ =>
    rw [conjoined] at kind
    obtain rfl : kind₁ = some "And" := kind
    rfl

/-- A conjunction of two queries lists the same after any query. What has no kind is no query. -/
theorem and_queries (p q : Builder) : ∃ added, ∀ t : Tree, ∃ k,
    ({ blank vocabulary expandsPaths with focus := t } : Sketch).and [.query p, .query q] = .ok k ∧
      k.tree = (if t.kind.isSome then t.conjoined
        else .node (some "And") [("and", .queries [])]).append "and" added :=
  ⟨(p.store.tree p.root).combined .and ++ (q.store.tree q.root).combined .and,
    fun _ => ⟨_, rfl, Tree.append_append "and" _ _ _⟩⟩

end Sketch

/-- A statement writes one node, or it adds two queries to a conjunction. -/
theorem Call.edit_of_isStatement {vocabulary : Vocabulary} {expandsPaths : Bool} {call : Call}
    {e : Edit} (statement : call.isStatement = true)
    (found : call.edit vocabulary expandsPaths = .ok e) :
    (call.operation.isComposite = false ∧ ∃ op fields, e = .write op fields) ∨
      call.operation.isComposite = true ∧ ∃ p q, e = .and [.query p, .query q] := by
  rcases Builder.single_or_replace call with single | ⟨subject, predicate, object, graph, rfl⟩
  · refine .inl ⟨single, ?_⟩
    cases call with
    | and | or | about | when => cases statement
    | replace subject predicate object graph => cases graph <;> cases single
    | truth =>
      cases found
      exact ⟨.truth, [], rfl⟩
    | path subject pattern object bound =>
      obtain ⟨steps, -, found⟩ := bind_eq_ok_iff.1 found
      obtain ⟨fields, -, found⟩ := bind_eq_ok_iff.1 found
      cases found
      exact ⟨.path, fields, rfl⟩
    | _ =>
      obtain ⟨fields, -, rfl⟩ := map_eq_ok_iff.1 found
      exact ⟨_, fields, rfl⟩
  · obtain ⟨parts, -, rfl⟩ := map_eq_ok_iff.1 found
    refine .inr ⟨?_, parts.1, parts.2, rfl⟩
    cases graph <;> rfl

theorem Call.subQueries_of_isStatement {call : Call} (statement : call.isStatement = true) :
    call.subQueries = [] := by
  cases call with
  | and | or | about | when => cases statement
  | _ => rfl

namespace Builder

variable {b after alone : Builder} {call : Call}

theorem legible_of_statement (initial : Initial b) (statement : call.isStatement = true)
    (ran : b.run call = .ok after) : (after.store.tree after.root).Legible := by
  have none : ∀ q, SubQuery.query q ∈ call.subQueries → Reachable Initial q := by
    rw [Call.subQueries_of_isStatement statement]
    exact nofun
  exact (legible_of_reachable (.run (.start initial) none ran)).tree

/-- What a statement does to a finished query and to the empty one, as trees. -/
theorem trees_of_statement {fields : Dictionary Json} (ordered : (Json.obj fields).Ordered)
    (started : ofJson (.obj fields) = .ok b) (statement : call.isStatement = true)
    (ran : b.run call = .ok after) : ∃ alone, fresh.run call = .ok alone ∧
      (((Tree.ofFields fields).kind.isSome = true → ∃ added,
        after.store.tree after.root = (Tree.ofFields fields).conjoined.append "and" added ∧
        (call.operation.isComposite = false → added = [alone.store.tree alone.root]) ∧
        (call.operation.isComposite = true →
          alone.store.tree alone.root = .node (some "And") [("and", .queries added)]))) ∧
      ((Tree.ofFields fields).kind = none → call.operation.isComposite = false →
        ∃ op given, after.store.tree after.root = (Tree.ofFields fields).write op given ∧
          alone.store.tree alone.root = Tree.empty.write op given) ∧
      ((Tree.ofFields fields).kind = none → call.operation.isComposite = true →
        after.store.tree after.root = alone.store.tree alone.root) := by
  have here := (realizes_ofJson ordered.1 started).run call
  have blank_ : fresh.Realizes (Sketch.blank .standard true) := realizes_blank .standard true
  have apart := blank_.run call
  rw [ran] at here
  obtain ⟨k, ran₁, realizes⟩ := here.exists_right
  obtain ⟨e, found, performed⟩ := bind_eq_ok_iff.1 ran₁
  have unfolded : (Sketch.blank .standard true).run call =
      (Sketch.blank .standard true).perform e := by
    rw [Sketch.run]
    have found : call.edit (Sketch.blank .standard true).vocabulary
      (Sketch.blank .standard true).expandsPaths = .ok e := found
    rw [found]
    rfl
  rw [unfolded] at apart
  rcases Call.edit_of_isStatement statement found with
    ⟨single, op, given, rfl⟩ | ⟨composite, p, q, rfl⟩
  · obtain ⟨alone, ran₂, realizes₁⟩ := apart.exists_left
    obtain rfl := Except.ok.inj performed
    refine ⟨alone, ran₂, ?_⟩
    rw [realizes.tree_eq, realizes₁.tree_eq, single]
    refine ⟨fun taken => ⟨_, ?_, fun _ => rfl, fun two => absurd two Bool.false_ne_true⟩,
      fun free _ => ?_, fun _ two => absurd two Bool.false_ne_true⟩
    · exact Sketch.tree_write .standard true taken op given
    · refine ⟨op.kind, given, ?_, rfl⟩
      have free : ¬(Tree.ofFields fields).kind.isSome = true := by simp [free]
      rw [Sketch.write_eq_free, Sketch.free, if_neg free]
      rfl
  · obtain ⟨added, each⟩ := Sketch.and_queries .standard true p q
    obtain ⟨k₁, ran₃, tree⟩ := each (Tree.ofFields fields)
    obtain rfl : k = k₁ := Except.ok.inj (performed.symm.trans ran₃)
    obtain ⟨j, apart₁, tree₁⟩ := each .empty
    have apart₁ : (Sketch.blank .standard true).perform (.and [.query p, .query q]) = .ok j :=
      apart₁
    rw [apart₁] at apart
    obtain ⟨alone, ran₂, realizes₁⟩ := apart.exists_left
    refine ⟨alone, ran₂, ?_⟩
    rw [realizes.tree_eq, realizes₁.tree_eq, composite, tree, tree₁]
    refine ⟨fun taken => ⟨added, ?_, fun one => absurd one.symm Bool.false_ne_true, fun _ => ?_⟩,
      fun _ one => absurd one.symm Bool.false_ne_true, fun free _ => ?_⟩
    · rw [if_pos taken]
    · exact Tree.append_combination .and [] added
    · rw [free]
      rfl

/-- **Going on with a query keeps it.** A statement that succeeds after a finished query succeeds on
its own. What it writes on its own comes last in a conjunction, after the queries that the finished
one is a conjunction of. If the finished one has no kind, it is the node that is written, and keeps
its other fields, unless a conjunction takes its place. -/
theorem ofJson_run {fields : Dictionary Json} (ordered : (Json.obj fields).Ordered)
    (started : ofJson (.obj fields) = .ok b) (statement : call.isStatement = true)
    (ran : b.run call = .ok after) : ∃ alone, fresh.run call = .ok alone ∧
      (∀ conjuncts, b.raw.Conjoins conjuncts → ∃ added,
        after.raw.kind? = some "And" ∧
        after.raw.get? "and" = some (.arr (conjuncts ++ added)) ∧
        (call.operation.isComposite = false → added = [alone.raw]) ∧
        (call.operation.isComposite = true →
          alone.raw = .obj [("@type", .str "And"), ("and", .arr added)])) ∧
      (b.raw.kind? = none → call.operation.isComposite = false →
        ∀ key, after.raw.get? key = (alone.raw.get? key).or (b.raw.get? key)) ∧
      (b.raw.kind? = none → call.operation.isComposite = true → after.raw = alone.raw) := by
  obtain ⟨alone, ran₁, taken, free, replaced⟩ := trees_of_statement ordered started statement ran
  obtain ⟨q, started₁, tree⟩ := ofJson_obj fields
  obtain rfl : q = b := Except.ok.inj (started₁.symm.trans started)
  have legible : (q.store.tree q.root).Legible := tree ▸ Tree.legible_ofFields fields
  have legible₁ := legible_of_statement (.ofJson ordered started) statement ran
  have legible₂ := legible_of_statement (.ofVocabulary .standard) statement ran₁
  rw [← tree] at taken free replaced
  have untyped : q.raw.kind? = none → (q.store.tree q.root).kind = none :=
    fun none => legible.kind?_raw.symm.trans none
  refine ⟨alone, ran₁, fun conjuncts conjoins => ?_, fun none single key => ?_,
    fun none two => congrArg Tree.raw (replaced (untyped none) two)⟩
  · obtain ⟨some, listed⟩ := legible.map_raw_children conjoins
    obtain ⟨added, grown, single, composite⟩ := taken some
    refine ⟨added.map Tree.raw, ?_, ?_, fun one => ?_, fun two => ?_⟩
    · have kind : (after.store.tree after.root).kind = .some "And" := by
        rw [grown]
        exact Tree.conjoined_kind _
      exact legible₁.kind?_raw.trans kind
    · rw [grown] at legible₁
      have found := Tree.get?_raw_append (by decide) legible₁
      rw [← grown, listed] at found
      exact found
    · rw [single one]
      rfl
    · have written := congrArg Tree.raw (composite two)
      rw [← Tree.rawAll_eq_map]
      exact written
  · obtain ⟨op, given, written, written₁⟩ := free (untyped none) single
    rw [written] at legible₁
    rw [written₁] at legible₂
    have found := Tree.get?_raw_write legible legible₁ legible₂ key
    rw [← written, ← written₁] at found
    exact found

/-- A deletion after a conjunction of one query. -/
theorem ofJson_run_conjunction : ∃ b after call, call.isStatement = true ∧
    ofJson (.obj [("@type", .str "And"), ("and", .arr [.obj [("a", .null)]])]) = .ok b ∧
    b.run call = .ok after ∧ ∃ alone, fresh.run call = .ok alone ∧
      alone.raw.kind? = some "DeleteDocument" ∧ after.raw.kind? = some "And" ∧
      after.raw.get? "and" = some (.arr [.obj [("a", .null)], alone.raw]) := by
  obtain ⟨b, after, single, started, ran, alone_, rawForm, kind⟩ : ∃ b after single,
      ofJson (.obj [("@type", .str "And"), ("and", .arr [.obj [("a", .null)]])]) = .ok b ∧
        b.run (.fill .deleteDocument [.str "v:Doc"] (by decide) (by decide)) = .ok after ∧
        fresh.run (.fill .deleteDocument [.str "v:Doc"] (by decide) (by decide)) = .ok single ∧
        b.raw = .obj [("@type", .str "And"), ("and", .arr [.obj [("a", .null)]])] ∧
        single.raw.kind? = some "DeleteDocument" := ⟨_, _, _, rfl, rfl, rfl, rfl, rfl⟩
  have ordered :
      (Json.obj [("@type", .str "And"), ("and", .arr [.obj [("a", .null)]])]).Ordered := by decide
  refine ⟨b, after, _, rfl, started, ran, ?_⟩
  obtain ⟨alone, ran₁, continued, -, -⟩ := ofJson_run ordered started rfl ran
  obtain rfl : single = alone := Except.ok.inj (alone_.symm.trans ran₁)
  have conjoins : b.raw.Conjoins [.obj [("a", .null)]] := by
    rw [rawForm]
    exact .listed rfl rfl rfl
  obtain ⟨added, typed, listed, one, -⟩ := continued _ conjoins
  rw [one rfl] at listed
  exact ⟨single, alone_, kind, typed, listed⟩

/-- An object without a kind does not become a query of a conjunction. -/
theorem ofJson_run_untyped : ∃ b after alone,
    ofJson (.obj [("a", .bool true)]) = .ok b ∧ b.run .truth = .ok after ∧
    fresh.run .truth = .ok alone ∧ b.raw.kind? ≠ some "And" ∧
    after.raw ≠ .obj [("@type", .str "And"), ("and", .arr [b.raw, alone.raw])] := by
  obtain ⟨b, after, alone, started, ran, ran₁, rawForm, written⟩ : ∃ b after alone,
      ofJson (.obj [("a", .bool true)]) = .ok b ∧ b.run .truth = .ok after ∧
        fresh.run .truth = .ok alone ∧ b.raw = .obj [("a", .bool true)] ∧
        after.raw = .obj [("@type", .str "True"), ("a", .bool true)] :=
    ⟨_, _, _, rfl, rfl, rfl, rfl, rfl⟩
  refine ⟨b, after, alone, started, ran, ran₁, ?_, ?_⟩
  · rw [rawForm]
    exact nofun
  · rw [written]
    intro same
    have kinds : some "True" = some "And" := congrArg Json.kind? same
    exact absurd kinds (by decide)

end Builder

end GraphQuery
