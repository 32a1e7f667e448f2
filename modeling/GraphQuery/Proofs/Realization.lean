import GraphQuery.Proofs.Layout

/-!
# Builders realize sketches

A builder realizes a sketch when its store shows the focus of the sketch inside its frames, with the
cursor at the focus. Each operation of a builder does to the store what the same operation of a
sketch does to the tree, and fails when that one does, with the same error. So every builder that
calls can make realizes a sketch, and its query is the tree of the sketch.

Key definitions: `Agrees`, `Builder.Draws`, `Builder.Realizes`.
Key theorems: `Realizes.perform`, `Realizes.raw_eq`.
-/

namespace GraphQuery

/-- The same error, or values in a relation. -/
inductive Agrees {α β : Type} (related : α → β → Prop) :
    Except Error α → Except Error β → Prop where
  | error (e : Error) : Agrees related (.error e) (.error e)
  | ok {a : α} {b : β} : related a b → Agrees related (.ok a) (.ok b)

namespace Agrees

variable {α β : Type} {related : α → β → Prop}

theorem exists_right {a : α} {y : Except Error β} (agrees : Agrees related (.ok a) y) :
    ∃ b, y = .ok b ∧ related a b := by
  generalize same : Except.ok a = x at agrees
  cases agrees with
  | error e => cases same
  | ok h =>
    cases same
    exact ⟨_, rfl, h⟩

theorem exists_left {b : β} {x : Except Error α} (agrees : Agrees related x (.ok b)) :
    ∃ a, x = .ok a ∧ related a b := by
  generalize same : Except.ok b = y at agrees
  cases agrees with
  | error e => cases same
  | ok h =>
    cases same
    exact ⟨_, rfl, h⟩

theorem symm {x : Except Error α} {y : Except Error β} (agrees : Agrees related x y) :
    Agrees (fun b a => related a b) y x := by
  cases agrees with
  | error e => exact .error e
  | ok h => exact .ok h

theorem eq_error {e : Error} {x : Except Error α} (agrees : Agrees related x (.error e)) :
    x = .error e := by
  generalize same : Except.error e = y at agrees
  cases agrees with
  | error e =>
    cases same
    rfl
  | ok h => cases same

theorem trans {γ : Type} {related₁ : β → γ → Prop} {x : Except Error α} {y : Except Error β}
    {z : Except Error γ} (agrees : Agrees related x y) (agrees₁ : Agrees related₁ y z) :
    Agrees (fun a c => ∃ b, related a b ∧ related₁ b c) x z := by
  cases agrees with
  | error e =>
    rw [agrees₁.symm.eq_error]
    exact .error e
  | ok h =>
    obtain ⟨c, rfl, h₁⟩ := agrees₁.exists_right
    exact .ok ⟨_, h, h₁⟩

theorem imp {weaker : α → β → Prop} {x : Except Error α} {y : Except Error β}
    (agrees : Agrees related x y) (h : ∀ a b, related a b → weaker a b) : Agrees weaker x y := by
  cases agrees with
  | error e => exact .error e
  | ok both => exact .ok (h _ _ both)

end Agrees

theorem Agrees.bind {α β γ δ : Type} {related : α → β → Prop} {related₁ : γ → δ → Prop}
    {x : Except Error α} {y : Except Error β} {f : α → Except Error γ} {g : β → Except Error δ}
    (agrees : Agrees related x y) (next : ∀ a b, related a b → Agrees related₁ (f a) (g b)) :
    Agrees related₁ (x.bind f) (y.bind g) := by
  cases agrees with
  | error e => exact .error e
  | ok h => exact next _ _ h

namespace Builder

/-- The store of a builder shows a plot inside rings, which is the sketch when the handles are
forgotten. -/
structure Draws (b : Builder) (k : Sketch) (rings : List Ring) (p : Plot) : Prop where
  shows_ : b.store.Shows b.root rings p
  cursor_eq : p.handle = b.cursor
  path_eq : rings.map Ring.outline = k.path
  focus_eq : p.tree = k.focus
  conjunction_eq : b.conjunction = k.conjunction.bind fun _ => rings.head?.map Ring.handle
  vocabulary_eq : b.vocabulary = k.vocabulary
  expandsPaths_eq : b.expandsPaths = k.expandsPaths

/-- A builder realizes a sketch. -/
def Realizes (b : Builder) (k : Sketch) : Prop := ∃ rings p, b.Draws k rings p

variable {b : Builder} {k : Sketch} {rings : List Ring} {p : Plot}

theorem Realizes.tree_eq (h : b.Realizes k) : b.store.tree b.root = k.tree := by
  obtain ⟨rings, p, d⟩ := h
  rw [d.shows_.tree_root, d.focus_eq, d.path_eq]
  rfl

theorem Realizes.raw_eq (h : b.Realizes k) : b.raw = k.tree.raw := by
  rw [raw, Store.raw, h.tree_eq]

theorem Realizes.vocabulary_eq (h : b.Realizes k) : b.vocabulary = k.vocabulary := by
  obtain ⟨rings, p, d⟩ := h
  exact d.vocabulary_eq

theorem Realizes.expandsPaths_eq (h : b.Realizes k) : b.expandsPaths = k.expandsPaths := by
  obtain ⟨rings, p, d⟩ := h
  exact d.expandsPaths_eq

namespace Draws

theorem here_eq (d : b.Draws k rings p) : b.here = p.stored := by
  rw [here, ← d.cursor_eq, d.shows_.stored_eq]

theorem kind_eq (d : b.Draws k rings p) : b.here.kind = k.focus.kind := by
  rw [d.here_eq, ← d.focus_eq, Plot.tree_kind]
  rfl

/-- Changing the node at the cursor changes the focus. -/
theorem update {s : Store} {added : Multiset Cell} (d : b.Draws k rings p) (p₁ : Plot)
    (f : Node → Node) (grown : Store.Grown b.store s added) (stored : f p.stored = p₁.stored)
    (handle : p₁.handle = p.handle) (sorted : p₁.fields.Sorted)
    (inner : p₁.inner ≤ p.inner + added) :
    Draws { b with store := s.modify b.cursor f } { k with focus := p₁.tree } rings p₁ where
  shows_ := by
    have shows_ := d.shows_.update grown handle sorted inner
    rw [Store.modify, ← d.cursor_eq, (d.shows_.grown grown).stored_eq, stored]
    exact shows_
  cursor_eq := handle.trans d.cursor_eq
  path_eq := d.path_eq
  focus_eq := rfl
  conjunction_eq := d.conjunction_eq
  vocabulary_eq := d.vocabulary_eq
  expandsPaths_eq := d.expandsPaths_eq

/-- Moving the cursor into an empty query of its node moves the focus into the gap. -/
theorem enter {key : String} {gap : Gap Plot} {q : Plot} (d : b.Draws k rings p)
    (found : p.fields.find? key = some (gap.fill q)) (empty : q.tree = .empty) :
    (b.goTo q.handle).Draws (k.descend key (gap.map Plot.tree))
      (⟨p.handle, p.kind, p.fields, key, gap⟩ :: rings) q where
  shows_ := by
    refine d.shows_.enter ?_ found
    rw [(Plot.fields_of_tree_empty empty).2]
    exact Dictionary.sorted_nil
  cursor_eq := rfl
  path_eq := by
    show Ring.outline _ :: rings.map Ring.outline = _ :: k.path
    rw [d.path_eq, ← d.focus_eq, Plot.tree_kind, Plot.tree_fields]
    rfl
  focus_eq := empty
  conjunction_eq := rfl
  vocabulary_eq := d.vocabulary_eq
  expandsPaths_eq := d.expandsPaths_eq

/-- A builder that conjoins no longer has the conjunction among the nodes around. -/
theorem settle (d : b.Draws k rings p) : Draws { b with conjunction := none }
    { k with frames := k.path, conjunction := none } rings p :=
  { d with conjunction_eq := rfl }

/-! ### Conjoining -/

/-- Moving the node at the cursor away puts the conjunction of it alone in its place. -/
theorem wrap (d : b.Draws k rings p) :
    ∃ p₁, b.wrap.Draws { k with focus := .node (some "And") [("and", .queries [k.focus])] }
      rings p₁ := by
  set first : Plot := .node ⟨b.store.nodes.size⟩ p.kind p.fields with first_def
  set p₁ : Plot := .node p.handle (some "And") [("and", .queries [first])] with p₁_def
  have stored : first.stored = p.stored := rfl
  have inner : p₁.inner ≤ p.inner + {(first.handle, p.stored)} := by
    have cells : p₁.inner = first.cells := by
      simp [p₁_def, Plot.inner, Plot.fields, Plot.cellsFields, Plot.cellsBranch, Plot.cellsAll]
    rw [cells, Plot.cells_eq, stored, ← Multiset.singleton_add, add_comm]
    exact le_rfl
  have grown := b.store.alloc_grown p.stored
  have wrapped := d.update p₁ (fun _ => p₁.stored) grown rfl rfl
    (Dictionary.sorted_singleton _ _) inner
  have focus : p₁.tree = .node (some "And") [("and", .queries [k.focus])] := by
    rw [← d.focus_eq, Plot.tree_eq p, p₁_def, Plot.tree_node, first_def]
    simp [Dictionary.mapValues, Branch.map, Plot.tree_node]
  have store : b.wrap =
      { b with store := (b.store.alloc p.stored).1.modify b.cursor fun _ => p₁.stored } := by
    have node : b.store.node b.cursor = p.stored := d.here_eq
    simp only [Builder.wrap, Store.move, node, Store.alloc_put, Store.put_alloc_put]
    rfl
  rw [focus] at wrapped
  rw [store]
  exact ⟨p₁, wrapped⟩

/-- The node at the cursor becomes a conjunction unless it is one. -/
theorem conjoined (d : b.Draws k rings p) :
    ∃ p₁, (if b.here.isKind "And" then b else b.wrap).Draws { k with focus := k.focus.conjoined }
      rings p₁ := by
  have kind := d.kind_eq
  unfold Tree.conjoined Node.isKind
  by_cases same : k.focus.kind = some "And"
  · rw [if_pos (by simp [kind, same]), if_pos same]
    exact ⟨p, d⟩
  · rw [if_neg (by simp [kind, same]), if_neg same]
    exact d.wrap

/-- A ring that is a conjunction has the query inside it as its last one. -/
theorem children_of_outline {ring : Ring} {fields : Dictionary (Branch Tree)}
    (outline : ring.outline = .conjunction fields) (p : Plot) :
    ∃ before, (ring.plug p).children "and" = before ++ [p] := by
  obtain ⟨handle, kind, given, key, gap⟩ := ring
  simp only [Ring.outline, Frame.map, Frame.conjunction, Frame.mk.injEq] at outline
  obtain ⟨-, -, rfl, outline⟩ := outline
  cases gap with
  | single => cases outline
  | among before after =>
    have none_after : after = [] := by simpa [Gap.map] using (Gap.among.inj outline).2
    refine ⟨before, ?_⟩
    rw [none_after]
    simp [Ring.plug, Plot.children, Plot.fields, Branch.children, Frame.filled, Gap.fill]

/-- The cursor is at the last query of the conjunction at hand, which is the innermost ring. -/
theorem leave {fields : Dictionary (Branch Tree)} (d : b.Draws k rings p)
    (open_ : k.conjunction = some fields) : ∃ (ring : Ring) (rest : List Ring),
      b.conjunction = some ring.handle ∧ b.isLastOf ring.handle = true ∧
      Draws { b with cursor := ring.handle, conjunction := none }
        { k with
          conjunction := none
          focus := .node (some "And") ((Frame.conjunction fields).filled k.focus) }
        rest (ring.plug p) := by
  have conjunction := d.conjunction_eq
  have path := d.path_eq
  have shows_ := d.shows_
  rw [Sketch.path, open_] at path
  rw [open_] at conjunction
  obtain ⟨ring, rest, rfl, outline, outer⟩ := List.map_eq_cons_iff.1 path
  have plugged := (Store.Shows.plug_iff (shows_.sortedAround ring List.mem_cons_self)
    shows_.sorted).2 shows_
  have focus : (ring.plug p).tree =
      .node (some "And") ((Frame.conjunction fields).filled k.focus) := by
    rw [Ring.tree_plug, outline, d.focus_eq]
    rfl
  refine ⟨ring, rest, conjunction, ?_,
    ⟨plugged, rfl, outer, focus, rfl, d.vocabulary_eq, d.expandsPaths_eq⟩⟩
  obtain ⟨before, children⟩ := children_of_outline outline p
  rw [isLastOf, show ring.handle = (ring.plug p).handle from rfl, plugged.stored_eq,
    Plot.stored_children, children, ← d.cursor_eq]
  simp

/-- The conjunction that the next query is added to. -/
theorem openConjunction (d : b.Draws k rings p) : ∃ rings₁ p₁,
    Draws { b.openConjunction.1 with cursor := b.openConjunction.2, conjunction := none }
      { k with conjunction := none, focus := k.openConjunction } rings₁ p₁ := by
  unfold Builder.openConjunction Sketch.openConjunction
  cases open_ : k.conjunction with
  | none =>
    have conjunction := d.conjunction_eq
    rw [open_] at conjunction
    obtain ⟨p₁, d₁⟩ := d.conjoined
    have cursor : (if b.here.isKind "And" then b else b.wrap).cursor = b.cursor := by
      split <;> rfl
    have frames : Sketch.path { k with focus := k.focus.conjoined } = k.frames := by
      rw [Sketch.path, open_]
    have settled := d₁.settle
    rw [frames] at settled
    simp only [conjunction, Option.bind_none, Option.filter_none]
    rw [← cursor]
    exact ⟨rings, p₁, settled⟩
  | some fields =>
    obtain ⟨ring, rest, conjunction, last, d₁⟩ := d.leave open_
    rw [conjunction, Option.filter_some_pos last]
    exact ⟨rest, ring.plug p, d₁⟩

/-- Adding an empty query to the conjunction at hand. -/
theorem conjoin (d : b.Draws k rings p) : b.conjoin.Realizes k.conjoin := by
  obtain ⟨rings₁, p₁, d₁⟩ := d.openConjunction
  rcases opened : b.openConjunction with ⟨s, h⟩
  rw [opened] at d₁
  have kind : p₁.kind = some "And" := by
    rw [← Plot.tree_kind, d₁.focus_eq, Sketch.openConjunction_kind]
  set q : Plot := .node (s.store.alloc .empty).2 none [] with q_def
  set ring : Ring := ⟨p₁.handle, some "And", p₁.fields, "and", .among (p₁.children "and") []⟩
    with ring_def
  have plug : ring.plug q = p₁.append "and" [q] := by
    rw [Plot.append, Plot.set, kind]
    rfl
  have inner : (p₁.append "and" [q]).inner ≤ p₁.inner + {(q.handle, .empty)} :=
    p₁.inner_append_le "and" [q] d₁.shows_.sorted
  have added := d₁.update (p₁.append "and" [q]) (Node.append "and" [q.handle])
    (s.store.alloc_grown .empty) (p₁.stored_append "and" [q]).symm rfl d₁.shows_.sorted.insert inner
  have outline : ring.outline = .conjunction k.openConjunction.fields := by
    have fields : k.openConjunction.fields = _ := d₁.focus_eq ▸ p₁.tree_fields
    have children : Branch.children "and" k.openConjunction.fields =
        (p₁.children "and").map Plot.tree := by
      rw [fields]
      exact Branch.children_mapValues Plot.tree "and" p₁.fields
    rw [Frame.conjunction, children, fields]
    rfl
  have built : b.conjoin = { s with
      store := (s.store.alloc .empty).1.modify h (Node.append "and" [q.handle])
      cursor := q.handle
      conjunction := some h } := by
    rw [Builder.conjoin, opened]
    rfl
  rw [built]
  exact ⟨ring :: rings₁, q, {
    shows_ := by
      apply (Store.Shows.plug_iff (p := q) d₁.shows_.sorted Dictionary.sorted_nil).1
      rw [plug]
      exact added.shows_
    cursor_eq := rfl
    path_eq := by
      rw [List.map_cons, outline, d₁.path_eq]
      rfl
    focus_eq := rfl
    conjunction_eq := congrArg some d₁.cursor_eq.symm
    vocabulary_eq := d₁.vocabulary_eq
    expandsPaths_eq := d₁.expandsPaths_eq }⟩

/-- Writing a node at the cursor. -/
theorem addNode (d : b.Draws k rings p) (op : Operation) (fields : List (String × Json)) :
    (b.addNode op fields).Realizes (k.write op fields) := by
  have free : (if b.here.kind.isSome then b.conjoin else b).Realizes
      (if k.focus.kind.isSome then k.conjoin else k) := by
    rw [d.kind_eq]
    by_cases taken : k.focus.kind.isSome
    · rw [if_pos taken, if_pos taken]
      exact d.conjoin
    · rw [if_neg taken, if_neg taken]
      exact ⟨rings, p, d⟩
  obtain ⟨rings₁, p₁, d₁⟩ := free
  have sorted := Branch.sorted_withValues fields d₁.shows_.sorted
  have inner : (p₁.write op.kind fields).inner ≤ p₁.inner + 0 :=
    (add_zero p₁.inner).symm ▸ p₁.inner_write_le op.kind fields d₁.shows_.sorted
  have written := d₁.update (p₁.write op.kind fields)
    (fun n => fields.foldl (fun n field => n.set field.1 (.value field.2))
      { n with kind := some op.kind })
    (Store.Grown.refl _) (p₁.stored_write op.kind fields).symm rfl sorted inner
  rw [Plot.tree_write, d₁.focus_eq] at written
  exact ⟨rings₁, _, written⟩

/-! ### Sub-queries -/

end Draws

/-- A sub-query is stored as its tree, or refused for the same reason. -/
theorem storeQuery_eq (op : Operation) (field : String) (b : Builder) (q : SubQuery) :
    b.storeQuery op field q = (q.tree op field).map fun t =>
      ({ b with store := (b.store.plant t).1 }, (b.store.plant t).2) := by
  cases q with
  | following => rfl
  | query q => rfl
  | truth => rfl
  | json json => cases json <;> rfl

namespace Draws

/-- Giving the node at the cursor a stored sub-query. -/
theorem set (d : b.Draws k rings p) (key : String) (t : Tree) : ∃ q : Plot, q.tree = t ∧
    q.handle = (b.store.plant t).2 ∧
      Draws { b with store := (b.store.plant t).1.modify b.cursor (Node.set key (.query q.handle)) }
        { k with focus := k.focus.set key (.query t) } rings (p.set key (.query q)) := by
  obtain ⟨q, tree, handle, grown⟩ := b.store.plant_grown t
  have placed := d.update (p.set key (.query q)) (Node.set key (.query q.handle)) grown
    (p.stored_set key (.query q)).symm rfl d.shows_.sorted.insert
    (p.inner_set_le key (.query q) d.shows_.sorted)
  rw [Plot.tree_set, d.focus_eq, Branch.map, tree] at placed
  exact ⟨q, tree, handle, placed⟩

/-- Giving the node at the cursor two stored sub-queries. -/
theorem setBoth (d : b.Draws k rings p) (key key₁ : String) (t t₁ : Tree) : ∃ q q₁ : Plot,
    q.tree = t ∧ q.handle = (b.store.plant t).2 ∧
      q₁.tree = t₁ ∧ q₁.handle = ((b.store.plant t).1.plant t₁).2 ∧
        Draws { b with store := ((b.store.plant t).1.plant t₁).1.modify b.cursor fun n =>
            (n.set key (.query q.handle)).set key₁ (.query q₁.handle) }
          { k with focus := (k.focus.set key (.query t)).set key₁ (.query t₁) } rings
          ((p.set key (.query q)).set key₁ (.query q₁)) := by
  obtain ⟨q, tree, handle, grown⟩ := b.store.plant_grown t
  obtain ⟨q₁, tree₁, handle₁, grown₁⟩ := (b.store.plant t).1.plant_grown t₁
  have sorted : (p.set key (.query q)).fields.Sorted := d.shows_.sorted.insert
  have stored : (p.stored.set key (.query q.handle)).set key₁ (.query q₁.handle) =
      ((p.set key (.query q)).set key₁ (.query q₁)).stored := by
    rw [Plot.stored_set, Plot.stored_set]
    rfl
  have inner := calc
    ((p.set key (.query q)).set key₁ (.query q₁)).inner
      ≤ (p.set key (.query q)).inner + q₁.cells := Plot.inner_set_le _ key₁ (.query q₁) sorted
    _ ≤ p.inner + q.cells + q₁.cells :=
      add_le_add_left (p.inner_set_le key (.query q) d.shows_.sorted) _
    _ = p.inner + (q.cells + q₁.cells) := add_assoc _ _ _
  have placed := d.update ((p.set key (.query q)).set key₁ (.query q₁))
    (fun n => (n.set key (.query q.handle)).set key₁ (.query q₁.handle)) (grown.trans grown₁) stored
    rfl sorted.insert inner
  rw [Plot.tree_set, Plot.tree_set, d.focus_eq, Branch.map, Branch.map, tree, tree₁] at placed
  exact ⟨q, q₁, tree, handle, tree₁, handle₁, placed⟩

/-- Giving the node at the cursor a sub-query. -/
theorem place (d : b.Draws k rings p) (op : Operation) (key : String) (q : SubQuery) :
    Agrees Realizes (b.place op key q) ((q.tree op key).map fun t =>
      let placed := { k with focus := k.focus.set key (.query t) }
      if q.isFollowing then placed.descend key .single else placed) := by
  rw [Builder.place, storeQuery_eq]
  cases found : q.tree op key with
  | error e => exact .error e
  | ok t =>
    obtain ⟨stored, tree, handle, placed⟩ := d.set key t
    refine .ok ?_
    simp only
    rw [← handle]
    by_cases following : q.isFollowing
    · have empty := tree.trans (SubQuery.eq_empty_of_isFollowing following found)
      have filled := Dictionary.find?_insert_self key (Gap.single.fill stored) p.fields
      rw [if_pos following, if_pos following]
      exact ⟨_, _, placed.enter filled empty⟩
    · rw [if_neg following, if_neg following]
      exact ⟨_, _, placed⟩

/-- The queries of a combination with, if one is left to the operations that follow, its gap. -/
inductive Chains (p : Plot) (key : String) : Option Handle → Option (Gap Tree) → Prop where
  | none : Chains p key none none
  | some {q : Plot} {before after : List Plot} (empty : q.tree = .empty)
    (found : p.fields.find? key = some (.queries (before ++ q :: after))) :
    Chains p key (some q.handle) (some (.among (before.map Plot.tree) (after.map Plot.tree)))

/-- Adding a stored query to the combination at the cursor. -/
theorem push (d : b.Draws k rings p) (c : Combinator) (t : Tree) : ∃ q : Plot, q.tree = t ∧
    q.handle = (b.store.plant t).2 ∧
      (Builder.push c b.cursor q.handle { b with store := (b.store.plant t).1 }).Draws
        { k with focus := k.focus.append c.key (t.combined c) } rings
        (p.append c.key (q.combined c)) := by
  obtain ⟨q, tree, handle, grown⟩ := b.store.plant_grown t
  have node : (b.store.plant t).1.node q.handle = q.stored :=
    grown.held.node_eq (by rw [q.cells_eq]; simp)
  have combined : ({ b with store := (b.store.plant t).1 } : Builder).combined c q.handle =
      (q.combined c).map Plot.handle := by
    rw [← q.stored_combined c, Builder.combined]
    simp only [node]
  have inner : (p.append c.key (q.combined c)).inner ≤ p.inner + q.cells :=
    (p.inner_append_le c.key (q.combined c) d.shows_.sorted).trans
      (add_le_add_right (q.cellsAll_combined_le c) _)
  have pushed := d.update (p.append c.key (q.combined c))
    (Node.append c.key ((q.combined c).map Plot.handle)) grown
    (p.stored_append c.key (q.combined c)).symm rfl d.shows_.sorted.insert inner
  rw [Plot.tree_append, d.focus_eq, ← q.tree_combined c, tree] at pushed
  refine ⟨q, tree, handle, ?_⟩
  rw [Builder.push, combined]
  exact pushed

/-- The chained query of a combination stays while queries are added. -/
theorem Chains.append {key : String} {chained : Option Handle} {gap : Option (Gap Tree)}
    (chains : Chains p key chained gap) (given : List Plot) :
    Chains (p.append key given) key chained (gap.map (Gap.extend (given.map Plot.tree))) := by
  cases chains with
  | none => exact .none
  | @some q before after empty found =>
    have listed : p.children key = before ++ q :: after := by
      rw [Plot.children, Branch.children, found]
    have found₁ : (p.append key given).fields.find? key =
        .some (.queries (before ++ q :: (after ++ given))) := by
      rw [Plot.append, listed]
      simp [Plot.set, Plot.fields]
    have chains := Chains.some empty found₁
    rw [List.map_append] at chains
    exact chains

/-- Adding sub-queries to the combination at the cursor. -/
theorem pushAll (c : Combinator) : ∀ (qs : List SubQuery) {b : Builder} {k : Sketch} {p : Plot}
    {chained : Option Handle} {gap : Option (Gap Tree)}, b.Draws k rings p →
      Chains p c.key chained gap →
        Agrees (fun after result => ∃ p₁, after.1.Draws { k with focus := result.1 } rings p₁ ∧
            Chains p₁ c.key after.2 result.2)
          (b.pushAll c b.cursor chained qs) (k.focus.pushAll c gap qs)
  | [], _, _, p, _, _, d, chains => .ok ⟨p, d, chains⟩
  | q :: qs, b, k, p, chained, gap, d, chains => by
    rw [Builder.pushAll, Tree.pushAll, storeQuery_eq]
    cases found : q.tree c.operation c.key with
    | error e => exact .error e
    | ok t =>
      obtain ⟨stored, tree, handle, pushed⟩ := d.push c t
      have chains₁ : Chains (p.append c.key (stored.combined c)) c.key
          (if q.isFollowing then some stored.handle else chained)
          (if q.isFollowing then some (.among (k.focus.children c.key) [])
            else gap.map (Gap.extend (t.combined c))) := by
        by_cases following : q.isFollowing
        · have empty := tree.trans (SubQuery.eq_empty_of_isFollowing following found)
          have alone : stored.combined c = [stored] := by
            rw [Plot.combined, if_neg (by simp [(Plot.fields_of_tree_empty empty).1])]
          have found := Dictionary.find?_insert_self c.key
            (.queries (p.children c.key ++ stored :: [])) p.fields
          rw [if_pos following, if_pos following, alone, ← d.focus_eq, p.tree_children]
          exact Chains.some (p := p.append c.key [stored]) empty found
        · rw [if_neg following, if_neg following, ← tree, stored.tree_combined]
          exact chains.append _
      have ih := pushAll c qs pushed chains₁
      rw [handle] at ih
      exact ih

/-- Adding sub-queries to the combination at the cursor and going on with the chained one. -/
theorem appendAll (d : b.Draws k rings p) (c : Combinator) (qs : List SubQuery) :
    Agrees Realizes (b.appendAll c qs) (k.appendAll c qs) := by
  unfold Builder.appendAll Sketch.appendAll
  refine (d.pushAll c qs .none).bind ?_
  rintro ⟨after, chained⟩ ⟨t, gap⟩ ⟨p₁, d₁, chains⟩
  cases chains with
  | none => exact .ok ⟨rings, p₁, d₁⟩
  | @some q before after empty found =>
    have found : p₁.fields.find? c.key = some ((Gap.among before after).fill q) := found
    exact .ok ⟨_, q, d₁.enter found empty⟩

/-! ### The edits -/

/-- The node at the cursor becomes a conjunction. -/
theorem beginAnd (d : b.Draws k rings p) : ∃ p₁,
    (if b.here.isKind "And" then b
      else if b.here.kind.isSome then b.wrap
      else { b with
        store := b.store.put b.cursor ⟨some "And", [("and", .queries [])]⟩ } : Builder).Draws
      { k with focus := if k.focus.kind.isSome then k.focus.conjoined
          else .node (some "And") [("and", .queries [])] } rings p₁ := by
  have kind := d.kind_eq
  by_cases taken : k.focus.kind.isSome
  · obtain ⟨p₁, d₁⟩ := d.conjoined
    rw [kind, if_pos taken, if_pos taken]
    exact ⟨p₁, d₁⟩
  · have other : b.here.isKind "And" = false := by
      have none : k.focus.kind = none := by simpa using taken
      simp [Node.isKind, kind, none]
    rw [other, kind, if_neg taken, if_neg taken]
    set p₁ : Plot := .node p.handle (some "And") [("and", .queries [])]
    have inner : p₁.inner ≤ p.inner + 0 := Multiset.zero_le _
    exact ⟨p₁, d.update p₁ (fun _ => p₁.stored) (Store.Grown.refl _) rfl rfl
      (Dictionary.sorted_singleton _ _) inner⟩

theorem and (d : b.Draws k rings p) (qs : List SubQuery) :
    Agrees Realizes (b.and qs) (k.and qs) := by
  obtain ⟨p₁, d₁⟩ := d.beginAnd
  exact d₁.settle.appendAll .and qs

theorem or (d : b.Draws k rings p) (qs : List SubQuery) :
    Agrees Realizes (b.or qs) (k.or qs) := by
  obtain ⟨rings₁, p₁, d₁⟩ := d.addNode .or []
  have inner : (p₁.set "or" (.queries [])).inner ≤ p₁.inner + 0 :=
    p₁.inner_set_le "or" (.queries []) d₁.shows_.sorted
  have begun := d₁.update (p₁.set "or" (.queries [])) (Node.set "or" (.queries []))
    (Store.Grown.refl _) (p₁.stored_set "or" (.queries [])).symm rfl d₁.shows_.sorted.insert inner
  rw [p₁.tree_set, d₁.focus_eq] at begun
  exact begun.appendAll .or qs

theorem addNodeAbout (d : b.Draws k rings p) (op : Operation) (fields : List (String × Json))
    (q : SubQuery) : Agrees Realizes (b.addNodeAbout op fields q) (k.host op fields q) := by
  obtain ⟨rings₁, p₁, d₁⟩ := d.addNode op fields
  have placed := d₁.place op "query" q
  rw [Builder.addNodeAbout, Sketch.host]
  cases found : q.tree op "query" with
  | error e =>
    rw [found] at placed
    exact placed
  | ok t =>
    rw [found] at placed
    exact placed

theorem when (d : b.Draws k rings p) (condition consequent : SubQuery) :
    Agrees Realizes (b.when condition consequent) (k.when condition consequent) := by
  unfold Builder.when Sketch.when
  by_cases both : (condition.isFollowing && consequent.isFollowing) = true
  · rw [if_pos both, if_pos both]
    exact .error _
  rw [if_neg both, if_neg both]
  obtain ⟨rings₁, p₁, d₁⟩ := d.addNode .when []
  simp only [storeQuery_eq]
  cases foundQuery : condition.tree .when "query" with
  | error e => exact .error e
  | ok t =>
    cases foundNext : consequent.tree .when "consequent" with
    | error e => exact .error e
    | ok t₁ =>
      obtain ⟨q, q₁, tree, handle, tree₁, handle₁, placed⟩ := d₁.setBoth "query" "consequent" t t₁
      refine .ok ?_
      simp only
      rw [← handle, ← handle₁]
      by_cases later : consequent.isFollowing
      · have empty := tree₁.trans (SubQuery.eq_empty_of_isFollowing later foundNext)
        have found := Dictionary.find?_insert_self "consequent" (Gap.single.fill q₁)
          (p₁.set "query" (.query q)).fields
        rw [if_pos later, if_pos later]
        exact ⟨_, _, placed.enter found empty⟩
      rw [if_neg later, if_neg later]
      by_cases sooner : condition.isFollowing
      · have empty := tree.trans (SubQuery.eq_empty_of_isFollowing sooner foundQuery)
        have found : ((p₁.set "query" (.query q)).set "consequent" (.query q₁)).fields.find?
            "query" = some (Gap.single.fill q) := by
          simp only [Plot.set, Plot.fields]
          rw [Dictionary.find?_insert_of_ne (by decide)]
          exact Dictionary.find?_insert_self _ _ _
        rw [if_pos sooner, if_pos sooner]
        exact ⟨_, _, placed.enter found empty⟩
      · rw [if_neg sooner, if_neg sooner]
        exact ⟨_, _, placed⟩

end Draws

namespace Realizes

/-- **Builders and sketches go on alike.** -/
theorem perform (h : b.Realizes k) (e : Edit) : Agrees Realizes (b.perform e) (k.perform e) := by
  obtain ⟨rings, p, d⟩ := h
  cases e with
  | write op fields => exact .ok (d.addNode op fields)
  | host op fields q => exact d.addNodeAbout op fields q
  | when condition consequent => exact d.when condition consequent
  | and qs => exact d.and qs
  | or qs => exact d.or qs

theorem run (h : b.Realizes k) (call : Call) : Agrees Realizes (b.run call) (k.run call) := by
  rw [run_eq_perform, Sketch.run, h.vocabulary_eq, h.expandsPaths_eq]
  cases call.edit k.vocabulary k.expandsPaths with
  | error e => exact .error e
  | ok e => exact h.perform e

theorem extendVocabulary (h : b.Realizes k) (given : List (String × String)) :
    (b.extendVocabulary given).Realizes { k with vocabulary := k.vocabulary.extend given } := by
  obtain ⟨rings, p, d⟩ := h
  exact ⟨rings, p, { d with vocabulary_eq := by rw [← d.vocabulary_eq]; rfl }⟩

end Realizes

/-! ### Where builders start -/

/-- A builder of one stored tree realizes it. -/
theorem realizes_plant (vocabulary : Vocabulary) (expandsPaths : Bool) (s : Store) (t : Tree)
    (sorted : t.fields.Sorted) :
    Realizes ⟨(s.plant t).1, (s.plant t).2, (s.plant t).2, vocabulary, expandsPaths, none⟩
      { Sketch.blank vocabulary expandsPaths with focus := t } := by
  obtain ⟨p, tree, handle, grown⟩ := s.plant_grown t
  have sorted : p.fields.Sorted := by
    rwa [← tree, p.tree_fields, Dictionary.sorted_mapValues_iff] at sorted
  have shows_ : (s.plant t).1.Shows (s.plant t).2 [] p := by
    refine ⟨handle, ?_, ?_, by simp, sorted⟩
    · simpa [Plot.cellsAround] using grown.held
    · simpa [Plot.cellsAround] using grown.distinct
  exact ⟨[], p, shows_, handle, rfl, tree, rfl, rfl, rfl⟩

theorem realizes_blank (vocabulary : Vocabulary) (expandsPaths : Bool) :
    (blank vocabulary expandsPaths).Realizes (.blank vocabulary expandsPaths) :=
  realizes_plant vocabulary expandsPaths .empty .empty Dictionary.sorted_nil

theorem realizes_ofJson {fields : Dictionary Json} (sorted : fields.Sorted)
    (built : ofJson (.obj fields) = .ok b) :
    b.Realizes { Sketch.blank .standard true with focus := .ofFields fields } := by
  cases built
  exact realizes_plant .standard true fresh.store (.ofFields fields)
    (Tree.sorted_ofFieldList _ sorted)

/-! ### Combining builders -/

/-- Adding the queries of builders to a combination is adding sub-queries. -/
theorem pushAll_query (c : Combinator) (host : Handle) (chained : Option Handle) :
    ∀ (parts : List Builder) (b : Builder), b.pushAll c host chained (parts.map .query) =
      .ok (parts.foldl (pushBuilder c host) b, chained)
  | [], _ => rfl
  | part :: parts, b => pushAll_query c host chained parts (pushBuilder c host b part)

/-- Adding sub-queries that are given adds the queries that each is a combination of. -/
theorem pushAll_given (c : Combinator) :
    ∀ {qs : List SubQuery} {given : List Tree} (ts : List Tree),
    List.Forall₂ (fun q t => q.isFollowing = false ∧ q.tree c.operation c.key = .ok t) qs given →
      Tree.pushAll c (.node (some c.kind) [(c.key, .queries ts)]) none qs =
        .ok (.node (some c.kind) [(c.key, .queries (ts ++ given.flatMap (Tree.combined c)))], none)
  | _, _, ts, .nil => by simp [Tree.pushAll]
  | q :: qs, t :: given, ts, .cons ⟨present, found⟩ others => by
    have ih := pushAll_given c (ts ++ t.combined c) others
    rw [Tree.pushAll, found]
    simp only [bind, Except.bind, present, Tree.append_combination, Option.map_none,
      Bool.false_eq_true, if_false, ih, List.flatMap_cons, List.append_assoc]

/-- What builders made is given. -/
theorem given_query (c : Combinator) (parts : List Builder) :
    List.Forall₂ (fun q t => q.isFollowing = false ∧ q.tree c.operation c.key = .ok t)
      (parts.map SubQuery.query) (parts.map fun part => part.store.tree part.root) :=
  List.forall₂_map_left_iff.2 (List.forall₂_map_right_iff.2
    (List.forall₂_same.2 fun _ _ => ⟨rfl, rfl⟩))

/-- Adding the queries of builders changes the store only. -/
theorem foldl_pushBuilder (c : Combinator) (host : Handle) : ∀ (parts : List Builder) (b : Builder),
    ∃ s, parts.foldl (pushBuilder c host) b = { b with store := s }
  | [], b => ⟨b.store, rfl⟩
  | part :: parts, b => foldl_pushBuilder c host parts (pushBuilder c host b part)

/-- A combination of builders, set up like one that realizes a sketch. -/
theorem realizes_ofParts {a : Builder} (h : a.Realizes k) (c : Combinator) (parts : List Builder) :
    (a.cleared.ofParts c parts).Realizes
      (k.combination c (parts.map fun part => part.store.tree part.root)) := by
  obtain ⟨rings, p, d⟩ := realizes_blank a.vocabulary a.expandsPaths
  set p₁ : Plot := .node p.handle (some c.kind) [(c.key, .queries [])]
  have inner : p₁.inner ≤ p.inner + 0 := Multiset.zero_le _
  have emptied := d.update p₁ (fun _ => p₁.stored) (Store.Grown.refl _) rfl rfl
    (Dictionary.sorted_singleton _ _) inner
  set e : Builder := { a.cleared with
    store := a.cleared.store.put a.cleared.root ⟨some c.kind, [(c.key, .queries [])]⟩ }
  have agrees := Draws.pushAll c (parts.map .query) (b := e) emptied .none
  have tree : p₁.tree = .node (some c.kind) [(c.key, .queries [])] := rfl
  simp only [pushAll_query, tree, pushAll_given c [] (given_query c parts), List.nil_append]
    at agrees
  cases agrees with
  | ok related =>
    obtain ⟨p₂, d₂, -⟩ := related
    obtain ⟨s, folded⟩ := foldl_pushBuilder c e.cursor parts e
    have built : a.cleared.ofParts c parts = { e with store := s } :=
      congrArg (goTo a.cleared.root) folded
    simp only [folded, h.vocabulary_eq, h.expandsPaths_eq] at d₂
    rw [built, Sketch.combination]
    exact ⟨rings, p₂, d₂⟩

theorem Realizes.both {a : Builder} {j : Sketch} (h : a.Realizes j) (h₁ : b.Realizes k) :
    (a.both b).Realizes (j.combination .and [j.tree, k.tree]) := by
  have combined := realizes_ofParts h .and [a, b]
  rwa [List.map_cons, List.map_cons, List.map_nil, h.tree_eq, h₁.tree_eq] at combined

theorem Realizes.either {a : Builder} {j : Sketch} (h : a.Realizes j) (h₁ : b.Realizes k) :
    (a.either b).Realizes (j.combination .or [j.tree, k.tree]) := by
  have combined := realizes_ofParts h .or [a, b]
  rwa [List.map_cons, List.map_cons, List.map_nil, h.tree_eq, h₁.tree_eq] at combined

/-- A builder as it is made: of the empty query with some settings, or of a finished query. -/
inductive Initial : Builder → Prop where
  | ofVocabulary (vocabulary : Vocabulary) : Initial (ofVocabulary vocabulary)
  | ofConfig (config : Config) : Initial (ofConfig config)
  | ofJson {json : Json} {b : Builder} : json.Ordered → ofJson json = .ok b → Initial b

theorem Initial.realizes (start : Initial b) : ∃ k, b.Realizes k := by
  cases start with
  | ofVocabulary vocabulary => exact ⟨_, realizes_blank vocabulary true⟩
  | ofConfig config => exact ⟨_, realizes_blank config.vocabulary config.expandsPaths⟩
  | @ofJson json _ ordered built =>
    cases json with
    | obj fields => exact ⟨_, realizes_ofJson ordered.1 built⟩
    | _ => cases built

/-- **Every builder realizes a sketch.** -/
theorem realizes_of_reachable (reachable : Reachable Initial b) : ∃ k, b.Realizes k := by
  induction reachable with
  | start initial => exact initial.realizes
  | @cleared b _ _ => exact ⟨_, realizes_blank b.vocabulary b.expandsPaths⟩
  | extendVocabulary given _ ih =>
    obtain ⟨k, h⟩ := ih
    exact ⟨_, h.extendVocabulary given⟩
  | @run b after call _ _ ran ih _ =>
    obtain ⟨k, h⟩ := ih
    obtain ⟨k₁, -, h₁⟩ := (ran ▸ h.run call).exists_right
    exact ⟨k₁, h₁⟩
  | both _ _ ih ih₁ =>
    obtain ⟨j, h⟩ := ih
    obtain ⟨k, h₁⟩ := ih₁
    exact ⟨_, h.both h₁⟩
  | either _ _ ih ih₁ =>
    obtain ⟨j, h⟩ := ih
    obtain ⟨k, h₁⟩ := ih₁
    exact ⟨_, h.either h₁⟩

end Builder

end GraphQuery
