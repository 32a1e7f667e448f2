import GraphQuery.Proofs.Sketch

/-!
# Updates in the trees that operations write

An operation keeps sub-queries where the scan for updates looks, and keeps everything else away from
there. In such a tree the scan sees every node. A gap in it is seen as well: the tree with a query
in the gap has an update when the query has one or the rest has.

Key definitions: `PlainKey`, `Tree.Built`, `Tree.hasUpdate`, `Encloses`.
Key theorems: `Tree.Built.hasUpdate_eq`, `Encloses.append`.
-/

namespace GraphQuery

/-- A name under which the scan does not look. -/
def PlainKey (key : String) : Prop := key ∉ ["@type", "query", "consequent", "and", "or"]

instance (key : String) : Decidable (PlainKey key) := inferInstanceAs (Decidable (key ∉ _))

/-- A name under which an operation has the query it is about. -/
def HostKey (key : String) : Prop := key = "query" ∨ key = "consequent"

namespace Tree

/-- Whether there is an update in a query. -/
def hasUpdate (t : Tree) : Bool := GraphQuery.hasUpdate t.raw

/-- A query that consists of empty queries, of nodes with plain fields and the queries they are
about, and of combinations. -/
inductive Built : Tree → Prop where
  | empty : Built .empty
  | node {kind : String} {fields : Dictionary (Branch Tree)} :
    (∀ c : Combinator, kind ≠ c.kind) →
    (∀ key json, (key, .value json) ∈ fields → PlainKey key) →
    (∀ key q, (key, .query q) ∈ fields → HostKey key) →
    (∀ key q, (key, .query q) ∈ fields → Built q) →
    (∀ key qs, (key, .queries qs) ∉ fields) →
    Built (.node (some kind) fields)
  | combination (c : Combinator) {ts : List Tree} : (∀ t ∈ ts, Built t) →
    Built (.node (some c.kind) [(c.key, .queries ts)])

theorem combinator_kind_inj {c d : Combinator} (same : c.kind = d.kind) : c = d := by
  revert same
  cases c <;> cases d <;> decide

theorem isUpdateKind_combinator (c : Combinator) : isUpdateKind c.kind = false := by
  cases c <;> decide

/-! ### The scan on a tree -/

/-- A field that the scan looks at in the right way. -/
def InPlace : String × Branch Tree → Prop
  | (key, .value _) => PlainKey key
  | (key, .query _) => HostKey key
  | (key, .queries _) => key = "and" ∨ key = "or"

theorem Built.inPlace {t : Tree} (built : t.Built) : ∀ field ∈ t.fields, InPlace field := by
  cases built with
  | empty => simp [Tree.empty, fields]
  | node _ plain host _ none =>
    rintro ⟨key, branch⟩ mem
    cases branch with
    | value json => exact plain key json mem
    | query q => exact host key q mem
    | queries qs => exact absurd mem (none key qs)
  | combination c _ =>
    intro field mem
    obtain rfl := List.mem_singleton.1 mem
    cases c <;> simp [InPlace, Combinator.key]

/-- Whether there is an update in the sub-queries of a field. -/
def branchHasUpdate (branch : Branch Tree) : Bool := branch.all.any hasUpdate

/-- What the scan says of one field. -/
theorem fieldsHaveUpdate_singleton {field : String × Branch Tree} (inPlace : InPlace field) :
    fieldsHaveUpdate [(field.1, rawBranch field.2)] = branchHasUpdate field.2 := by
  obtain ⟨key, branch⟩ := field
  cases branch with
  | value json =>
    have plain : PlainKey key := inPlace
    simp only [PlainKey, List.mem_cons, List.not_mem_nil, or_false, not_or] at plain
    obtain ⟨-, notQuery, notConsequent, notAnd, notOr⟩ := plain
    simp [fieldsHaveUpdate, notQuery, notConsequent, notAnd, notOr, branchHasUpdate, Branch.all]
  | query q =>
    have host : key = "query" ∨ key = "consequent" := inPlace
    simp [fieldsHaveUpdate, host, rawBranch, branchHasUpdate, Branch.all, hasUpdate]
  | queries qs =>
    have list : key = "and" ∨ key = "or" := inPlace
    have other : ¬ (key = "query" ∨ key = "consequent") := by
      rcases list with rfl | rfl <;> decide
    simp only [fieldsHaveUpdate, other, list, if_true, if_false, rawBranch, branchesHaveUpdate,
      anyHasUpdate_eq_any, rawAll_eq_map, List.any_map, Bool.or_false]
    rfl

theorem fieldsHaveUpdate_cons (field : String × Json) (rest : List (String × Json)) :
    fieldsHaveUpdate (field :: rest) = (fieldsHaveUpdate [field] || fieldsHaveUpdate rest) := by
  simp [fieldsHaveUpdate]

theorem fieldsHaveUpdate_raw : ∀ {fields : List (String × Branch Tree)},
    (∀ field ∈ fields, InPlace field) →
      fieldsHaveUpdate (rawFields fields) = fields.any fun field => branchHasUpdate field.2
  | [], _ => rfl
  | field :: rest, inPlace => by
    have ⟨first, others⟩ := List.forall_mem_cons.1 inPlace
    rw [rawFields, fieldsHaveUpdate_cons, fieldsHaveUpdate_singleton first,
      fieldsHaveUpdate_raw others, List.any_cons]

/-- The scan does not look at the `@type` of an object for sub-queries. -/
theorem fieldsHaveUpdate_insert_type (json : Json) : ∀ fields : Dictionary Json,
    fieldsHaveUpdate (fields.insert "@type" json) = fieldsHaveUpdate fields
  | [] => by simp [Dictionary.insert, fieldsHaveUpdate]
  | (key, value) :: rest => by
    have unseen (json : Json) : fieldsHaveUpdate [("@type", json)] = false := by
      simp [fieldsHaveUpdate]
    have ih := fieldsHaveUpdate_insert_type json rest
    unfold Dictionary.insert
    by_cases less : "@type" < key
    · rw [if_pos less, fieldsHaveUpdate_cons, unseen, Bool.false_or]
    · rw [if_neg less]
      by_cases same : "@type" = key
      · subst same
        rw [if_pos rfl, fieldsHaveUpdate_cons, unseen, fieldsHaveUpdate_cons (_, value), unseen]
      · rw [if_neg same, fieldsHaveUpdate_cons, ih, ← fieldsHaveUpdate_cons]

theorem InPlace.ne_type {field : String × Branch Tree} (inPlace : InPlace field) :
    field.1 ≠ "@type" := by
  obtain ⟨key, branch⟩ := field
  rintro rfl
  cases branch with
  | value json =>
    have plain : PlainKey "@type" := inPlace
    exact absurd plain (by decide)
  | query q => rcases inPlace with same | same <;> exact absurd same (by decide)
  | queries qs => rcases inPlace with same | same <;> exact absurd same (by decide)

/-- **The scan sees every node.** -/
theorem Built.hasUpdate_eq {t : Tree} (built : t.Built) :
    t.hasUpdate =
      (t.kind.any isUpdateKind || t.fields.any fun field => branchHasUpdate field.2) := by
  have inPlace : ∀ field ∈ t.fields, InPlace field := built.inPlace
  obtain ⟨kind, fields⟩ := t
  change ∀ field ∈ fields, InPlace field at inPlace
  have noType : Dictionary.contains "@type" (rawFields fields) = false := by
    have absent : Dictionary.find? "@type" (rawFields fields) = none := by
      rw [rawFields_eq_mapValues]
      refine Dictionary.find?_eq_none_of_forall_ne fun entry mem => ?_
      obtain ⟨field, place, rfl⟩ := List.mem_map.1 mem
      exact (inPlace field place).ne_type
    rw [Dictionary.contains, absent]
    rfl
  have scanned := fieldsHaveUpdate_raw inPlace
  rw [hasUpdate, raw, GraphQuery.hasUpdate, isUpdateNode]
  cases kind with
  | none =>
    have none : fields = [] := by
      cases built
      rfl
    subst none
    rfl
  | some kind =>
    rw [withKind, Dictionary.insertNew, if_neg (by simp [noType]), fieldsHaveUpdate_insert_type,
      scanned, Json.kindOf, Dictionary.find?_insert_self]
    rfl

/-- A combination has the updates of its queries. -/
theorem hasUpdate_combination (c : Combinator) (ts : List Tree) :
    (Tree.node (some c.kind) [(c.key, .queries ts)]).hasUpdate = ts.any hasUpdate := by
  have raw : (Tree.node (some c.kind) [(c.key, .queries ts)]).raw =
      .obj [("@type", .str c.kind), (c.key, .arr (rawAll ts))] := by
    cases c <;> rfl
  have list : c.key = "and" ∨ c.key = "or" := by
    cases c <;> decide
  have own : isUpdateNode [("@type", .str c.kind), (c.key, .arr (rawAll ts))] = false :=
    isUpdateKind_combinator c
  have inPlace : InPlace (c.key, .queries ts) := list
  have unseen : fieldsHaveUpdate [("@type", .str c.kind)] = false := rfl
  rw [hasUpdate, raw, GraphQuery.hasUpdate, own, Bool.false_or, fieldsHaveUpdate_cons, unseen,
    Bool.false_or]
  exact fieldsHaveUpdate_singleton inPlace

/-! ### Nodes that are about queries -/

/-- A combination of a kind is nothing but its queries. -/
theorem Built.eq_combination {t : Tree} (built : t.Built) {c : Combinator}
    (kind : t.kind = some c.kind) :
    ∃ ts, t = .node (some c.kind) [(c.key, .queries ts)] ∧ ∀ t ∈ ts, t.Built := by
  cases built with
  | empty => cases kind
  | node other _ _ _ _ => exact absurd (Option.some.inj kind) (other c)
  | @combination d ts built =>
    obtain rfl : d = c := combinator_kind_inj (Option.some.inj kind)
    exact ⟨ts, rfl, built⟩

theorem Built.parts {c : Combinator} {ts : List Tree}
    (built : (Tree.node (some c.kind) [(c.key, .queries ts)]).Built) : ∀ t ∈ ts, t.Built := by
  obtain ⟨ts₁, same, parts⟩ := built.eq_combination rfl
  cases same
  exact parts

theorem Built.eq_empty {t : Tree} (built : t.Built) (kind : t.kind = none) : t = .empty := by
  cases built with
  | empty => rfl
  | node => cases kind
  | combination => cases kind

theorem Built.combined {t : Tree} (built : t.Built) (c : Combinator) :
    (∀ u ∈ t.combined c, u.Built) ∧ (t.combined c).any hasUpdate = t.hasUpdate := by
  unfold Tree.combined
  by_cases kind : t.kind = some c.kind
  · obtain ⟨ts, rfl, parts⟩ := built.eq_combination kind
    have children : Tree.children c.key (.node (some c.kind) [(c.key, .queries ts)]) = ts := by
      simp [Tree.children, Tree.fields, Branch.children, Dictionary.find?]
    rw [if_pos kind, children, hasUpdate_combination c ts]
    exact ⟨parts, rfl⟩
  · rw [if_neg kind]
    simp [built]

theorem Built.conjoined {t : Tree} (built : t.Built) : ∃ ts,
    t.conjoined = .node (some "And") [("and", .queries ts)] ∧ (∀ u ∈ ts, u.Built) ∧
      t.conjoined.hasUpdate = t.hasUpdate := by
  unfold Tree.conjoined
  by_cases kind : t.kind = some "And"
  · obtain ⟨ts, same, parts⟩ := built.eq_combination (c := .and) kind
    rw [if_pos kind]
    exact ⟨ts, same, parts, rfl⟩
  · have parts : ∀ u ∈ [t], u.Built := by simpa using built
    have update := hasUpdate_combination .and [t]
    rw [if_neg kind]
    exact ⟨[t], rfl, parts, update.trans (Bool.or_false _)⟩

/-- A node with plain fields, as an operation that is no combination writes it. -/
theorem built_write {kind : String} {given : List (String × Json)}
    (other : ∀ c : Combinator, kind ≠ c.kind) (plain : ∀ field ∈ given, PlainKey field.1) :
    (Tree.empty.write kind given).Built ∧
      (Tree.empty.write kind given).hasUpdate = isUpdateKind kind := by
  have written : ∀ field ∈ Branch.withValues given ([] : Dictionary (Branch Tree)),
      PlainKey field.1 ∧ ∃ json, field.2 = .value json := by
    intro field mem
    rcases Branch.mem_withValues given mem with none | ⟨source, listed, rfl⟩
    · cases none
    · exact ⟨plain source listed, source.2, rfl⟩
  have built : (Tree.empty.write kind given).Built := by
    refine .node other ?_ ?_ ?_ ?_
    · exact fun key json mem => (written _ mem).1
    · intro key q mem
      obtain ⟨-, json, value⟩ := written _ mem
      cases value
    · intro key q mem
      obtain ⟨-, json, value⟩ := written _ mem
      cases value
    · intro key qs mem
      obtain ⟨-, json, value⟩ := written _ mem
      cases value
  refine ⟨built, ?_⟩
  have none : (Branch.withValues given ([] : Dictionary (Branch Tree))).any
      (fun field => branchHasUpdate field.2) = false := by
    rw [List.any_eq_false]
    intro field mem
    obtain ⟨-, json, value⟩ := written field mem
    simp [value, branchHasUpdate, Branch.all]
  rw [built.hasUpdate_eq]
  show (isUpdateKind kind || _) = _
  rw [show (Tree.empty.write kind given).fields = Branch.withValues given [] from rfl, none,
    Bool.or_false]

theorem hasUpdate_empty : Tree.empty.hasUpdate = false := rfl

/-- Storing a sub-query adds its updates to those that are there with an empty one. -/
theorem any_insert_query (key : String) (q : Tree) : ∀ fields : Dictionary (Branch Tree),
    (fields.insert key (.query q)).any (fun field => branchHasUpdate field.2) =
      ((fields.insert key (.query .empty)).any (fun field => branchHasUpdate field.2) ||
        q.hasUpdate)
  | [] => by simp [Dictionary.insert, branchHasUpdate, Branch.all, hasUpdate_empty]
  | (k, branch) :: rest => by
    have ih := any_insert_query key q rest
    by_cases less : key < k
    · simp [Dictionary.insert, less, branchHasUpdate, Branch.all, hasUpdate_empty, Bool.or_comm]
    · by_cases same : key = k
      · simp [same, branchHasUpdate, Branch.all, hasUpdate_empty, Bool.or_comm]
      · simp [Dictionary.insert, less, same, ih, Bool.or_assoc]

theorem any_insert_of_absent {key : String} (branch : Branch Tree) :
    ∀ {fields : Dictionary (Branch Tree)}, (∀ field ∈ fields, field.1 ≠ key) →
      (fields.insert key branch).any (fun field => branchHasUpdate field.2) =
        (fields.any (fun field => branchHasUpdate field.2) || branchHasUpdate branch)
  | [], _ => by simp [Dictionary.insert]
  | (k, b) :: rest, absent => by
    obtain ⟨first, others⟩ := List.forall_mem_cons.1 absent
    have ih := any_insert_of_absent branch others
    by_cases less : key < k
    · simp [Dictionary.insert, less, Bool.or_comm]
    · simp [Dictionary.insert, less, Ne.symm first, ih, Bool.or_assoc]

/-- Giving a node a query that it is about. -/
theorem Built.set_query {kind : String} {fields : Dictionary (Branch Tree)} {key : String}
    {q : Tree} (built : (Tree.node (some kind) fields).Built)
    (other : ∀ c : Combinator, kind ≠ c.kind)
    (host : HostKey key) (built_q : q.Built) :
    (Tree.node (some kind) (fields.insert key (.query q))).Built := by
  cases built with
  | combination c => exact absurd rfl (other c)
  | node _ plain hosts parts single =>
    refine .node other ?_ ?_ ?_ ?_
    · intro k json mem
      rcases Dictionary.mem_insert mem with same | before
      · cases same
      · exact plain k json before
    · intro k t mem
      rcases Dictionary.mem_insert mem with same | before
      · cases same
        exact host
      · exact hosts k t before
    · intro k t mem
      rcases Dictionary.mem_insert mem with same | before
      · cases same
        exact built_q
      · exact parts k t before
    · intro k ts mem
      rcases Dictionary.mem_insert mem with same | before
      · cases same
      · exact single k ts before

theorem hasUpdate_set_query {kind : String} {fields : Dictionary (Branch Tree)} {key : String}
    {q : Tree} (built : (Tree.node (some kind) fields).Built)
    (other : ∀ c : Combinator, kind ≠ c.kind) (host : HostKey key) (built_q : q.Built) :
    (Tree.node (some kind) (fields.insert key (.query q))).hasUpdate =
      ((Tree.node (some kind) (fields.insert key (.query .empty))).hasUpdate || q.hasUpdate) := by
  rw [(built.set_query other host built_q).hasUpdate_eq,
    (built.set_query other host .empty).hasUpdate_eq]
  show (isUpdateKind kind || List.any (fields.insert key (.query q)) _) = _
  rw [any_insert_query, ← Bool.or_assoc]
  rfl

/-- A query under a new name adds its updates. -/
theorem hasUpdate_add_query {kind : String} {fields : Dictionary (Branch Tree)} {key : String}
    {q : Tree} (built : (Tree.node (some kind) fields).Built)
    (other : ∀ c : Combinator, kind ≠ c.kind) (host : HostKey key) (built_q : q.Built)
    (absent : ∀ field ∈ fields, field.1 ≠ key) :
    (Tree.node (some kind) (fields.insert key (.query q))).hasUpdate =
      ((Tree.node (some kind) fields).hasUpdate || q.hasUpdate) := by
  rw [(built.set_query other host built_q).hasUpdate_eq, built.hasUpdate_eq]
  show (isUpdateKind kind || List.any (fields.insert key (.query q)) _) = _
  rw [any_insert_of_absent _ absent, ← Bool.or_assoc]
  simp [branchHasUpdate, Branch.all, Tree.kind, Tree.fields]

end Tree

/-! ### Gaps -/

/-- Frames keep queries where the scan sees them. The tree with a query inside has an update when
the query has one or the frames have. -/
def Encloses (frames : List (Frame Tree)) : Prop :=
  ∀ t : Tree, t.Built → (t.within frames).Built ∧
    (t.within frames).hasUpdate = ((Tree.empty.within frames).hasUpdate || t.hasUpdate)

namespace Encloses

theorem nil : Encloses [] := fun _ built => ⟨built, rfl⟩

theorem append {inner outer : List (Frame Tree)} (h : Encloses inner) (h₁ : Encloses outer) :
    Encloses (inner ++ outer) := by
  intro t built
  rw [Tree.within_append, Tree.within_append]
  obtain ⟨inside, update⟩ := h t built
  obtain ⟨around, update₁⟩ := h₁ _ inside
  obtain ⟨-, update₂⟩ := h₁ _ (h .empty .empty).1
  refine ⟨around, ?_⟩
  rw [update₁, update₂, update, Bool.or_assoc]

/-- A query in a node that is about it. -/
theorem single {kind : String} {fields : Dictionary (Branch Tree)} {key : String}
    (built : (Tree.node (some kind) fields).Built) (other : ∀ c : Combinator, kind ≠ c.kind)
    (host : HostKey key) : Encloses [⟨some kind, fields, key, .single⟩] :=
  fun _ built_q => ⟨built.set_query other host built_q,
    Tree.hasUpdate_set_query built other host built_q⟩

/-- A query among others in a combination. -/
theorem among (c : Combinator) (ts : List Tree) {before after : List Tree}
    (built : ∀ t ∈ before, t.Built) (built₁ : ∀ t ∈ after, t.Built) :
    Encloses [⟨some c.kind, [(c.key, .queries ts)], c.key, .among before after⟩] := by
  have filled (t : Tree) : t.within [⟨some c.kind, [(c.key, .queries ts)], c.key,
      .among before after⟩] = .node (some c.kind) [(c.key, .queries (before ++ t :: after))] := by
    simp [Tree.within, Frame.filled, Gap.fill]
  have all : ∀ t : Tree, t.Built → ∀ u ∈ before ++ t :: after, u.Built := by
    intro _ built_t u mem
    rcases List.mem_append.1 mem with mem | mem
    · exact built u mem
    · rcases List.mem_cons.1 mem with rfl | mem
      · exact built_t
      · exact built₁ u mem
  intro t built_t
  rw [filled, filled, Tree.hasUpdate_combination, Tree.hasUpdate_combination]
  refine ⟨.combination c (all t built_t), ?_⟩
  simp only [List.any_append, List.any_cons, Tree.hasUpdate_empty, Bool.false_or, Bool.or_assoc]
  rw [Bool.or_comm t.hasUpdate]

end Encloses

end GraphQuery
