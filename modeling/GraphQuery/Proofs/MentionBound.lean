import GraphQuery.Proofs.MentionCount
import GraphQuery.Proofs.NormalForm

/-!
# What bounds the mentions of a variable

The queries that a query is a combination of mention a variable no more often than the query. An
object mentions it as often as the query that it is, or more often, since the query does not keep
all of it. The wire form of a query leaves parts out and adds no mention.

Key theorems: `Tree.sum_combined_le`, `Tree.uses_ofFields_le`, `Tree.count_wire_le`.
-/

namespace GraphQuery

variable {v : String}

namespace Tree

/-- The queries under a name mention no more than the query does. -/
theorem sum_children_le (key : String) (t : Tree) :
    ((t.children key).map (uses v)).sum ≤ t.uses v := by
  obtain ⟨kind, fields⟩ := t
  rw [uses_node, children, Tree.fields]
  induction fields with
  | nil => exact le_rfl
  | cons field fields ih =>
    obtain ⟨other, branch⟩ := field
    rw [List.map_cons, List.sum_cons]
    by_cases same : key = other
    · have found : Dictionary.find? key ((other, branch) :: fields) = some branch := by
        rw [Dictionary.find?, if_pos same]
      rw [Branch.children, found]
      cases branch with
      | queries qs => exact Nat.le_add_right _ _
      | _ => exact Nat.zero_le _
    · have later : Branch.children key ((other, branch) :: fields) =
          Branch.children key fields := by
        rw [Branch.children, Dictionary.find?, if_neg same]
        rfl
      rw [later]
      exact ih.trans (Nat.le_add_left _ _)

theorem sum_combined_le (c : Combinator) (t : Tree) :
    ((t.combined c).map (uses v)).sum ≤ t.uses v := by
  by_cases kind : t.kind = some c.kind
  · rw [combined, if_pos kind]
    exact t.sum_children_le c.key
  · rw [combined, if_neg kind, List.map_singleton, List.sum_singleton]

mutual

/-- The query that an object is mentions no more than the object. -/
theorem usesUnder_ofField_le (kind : Option String) (key : String) : ∀ json : Json,
    usesUnder v (key, ofField kind key json) ≤ (Json.mentionsUnder (key, json)).count v
  | .obj fields => by
    have inside := sum_ofFieldList_le (Json.kindOf fields) fields
    rw [ofField]
    by_cases query : holdsQueries kind key
    · rw [if_pos query, usesUnder, uses_node, Json.mentionsUnder, List.count_append,
        Json.mentions_obj]
      exact inside.trans (Nat.le_add_left _ _)
    · rw [if_neg query, usesUnder]
  | .arr items => by
    have inside := sum_ofItems_le items
    rw [ofField]
    by_cases queries : (holdsQueries kind key && items.all Json.isObject) = true
    · rw [if_pos queries, usesUnder, Json.mentionsUnder, List.count_append, Json.mentions_arr]
      exact inside.trans (Nat.le_add_left _ _)
    · rw [if_neg queries, usesUnder]
  | .null | .bool _ | .number _ | .str _ => le_rfl

theorem sum_ofFieldList_le (kind : Option String) : ∀ fields : List (String × Json),
    ((ofFieldList kind fields).map (usesUnder v)).sum ≤
      (fields.flatMap Json.mentionsUnder).count v
  | [] => le_rfl
  | (key, json) :: rest => by
    have first := usesUnder_ofField_le kind key json
    have others := sum_ofFieldList_le kind rest
    rw [ofFieldList, List.flatMap_cons, List.count_append]
    by_cases type : key = "@type"
    · rw [if_pos type]
      exact others.trans (Nat.le_add_left _ _)
    · rw [if_neg type, List.map_cons, List.sum_cons]
      exact Nat.add_le_add first others

theorem sum_ofItems_le : ∀ items : List Json,
    ((ofItems items).map (uses v)).sum ≤ (items.flatMap Json.mentions).count v
  | [] => le_rfl
  | .obj fields :: rest => by
    have first := sum_ofFieldList_le (Json.kindOf fields) fields
    have others := sum_ofItems_le rest
    rw [ofItems, List.map_cons, List.sum_cons, List.flatMap_cons, List.count_append, uses_node,
      Json.mentions_obj]
    exact Nat.add_le_add first others
  | .arr _ :: rest | .null :: rest | .bool _ :: rest | .number _ :: rest
  | .str _ :: rest => by
    have others := sum_ofItems_le rest
    rw [ofItems, List.flatMap_cons, List.count_append]
    · exact others.trans (Nat.le_add_left _ _)
    · exact nofun

end

theorem uses_ofFields_le (fields : Dictionary Json) :
    (ofFields fields).uses v ≤ (Json.obj fields).mentions.count v := by
  rw [ofFields, uses_node, Json.mentions_obj]
  exact sum_ofFieldList_le _ fields

/-! ### What is sent -/

/-- A combination that is sent mentions what its queries mention. -/
theorem mentions_of_combine {c : Combinator} {items : List Json} {json : Json}
    (objects : ∀ item ∈ items, item.isObject = true) (combined : combine c items = some json) :
    json.isObject = true ∧ json.mentions = items.flatMap Json.mentions := by
  match items with
  | [] => cases combined
  | [item] =>
    cases combined
    exact ⟨objects json (List.mem_singleton_self json), (List.flatMap_singleton _ _).symm⟩
  | first :: second :: rest =>
    cases combined
    have key : Json.namesVariables c.key = false := by cases c <;> decide
    refine ⟨rfl, ?_⟩
    rw [Json.mentions_tagged _ key, Json.mentions_arr]

/-- An object names no variable itself, whatever field it stands in. -/
theorem mentionsUnder_of_isObject (key : String) {json : Json} (object : json.isObject = true) :
    Json.mentionsUnder (key, json) = json.mentions := by
  cases json with
  | obj fields => rfl
  | _ => cases object

theorem mentionsUnder_of_objects (key : String) {items : List Json}
    (objects : ∀ item ∈ items, item.isObject = true) :
    Json.mentionsUnder (key, .arr items) = items.flatMap Json.mentions := by
  have texts : items.filterMap Json.text? = [] := by
    refine List.filterMap_eq_nil_iff.2 fun item mem => ?_
    cases item with
    | obj fields => rfl
    | _ => cases objects _ mem
  rw [Json.mentionsUnder, Json.namedUnder, texts, ite_self, List.nil_append, Json.mentions_arr]

/-- What is sent is an object that mentions no more than the query. -/
def SendsLess (v : String) (t : Tree) : Prop :=
  ∀ json, t.wire? = some json → json.isObject = true ∧ json.mentions.count v ≤ t.uses v

theorem count_filterMap_wire?_le : ∀ {ts : List Tree}, (∀ t ∈ ts, t.SendsLess v) →
    ((ts.filterMap wire?).flatMap Json.mentions).count v ≤ (ts.map (uses v)).sum
  | [], _ => le_rfl
  | t :: ts, less => by
    obtain ⟨first, others⟩ := List.forall_mem_cons.1 less
    have ih := count_filterMap_wire?_le others
    rw [List.map_cons, List.sum_cons]
    cases sent : t.wire? with
    | none =>
      rw [List.filterMap_cons_none sent]
      exact ih.trans (Nat.le_add_left _ _)
    | some json =>
      rw [List.filterMap_cons_some sent, List.flatMap_cons, List.count_append]
      exact Nat.add_le_add (first json sent).2 ih

theorem objects_filterMap_wire? {ts : List Tree} (less : ∀ t ∈ ts, t.SendsLess v) :
    ∀ item ∈ ts.filterMap wire?, item.isObject = true := by
  intro item mem
  obtain ⟨t, listed, sent⟩ := List.mem_filterMap.1 mem
  exact (less t listed item sent).1

/-- The content of a field that is sent. -/
theorem count_settleField_le {key : String} {branch : Branch Tree}
    (less : ∀ t ∈ branch.all, t.SendsLess v) {field : String × Json}
    (sent : settleField (key, wireBranch branch) = some field) :
    (Json.mentionsUnder field).count v ≤ usesUnder v (key, branch) := by
  cases branch with
  | value json =>
    cases sent
    exact le_rfl
  | query t =>
    have less := less t (List.mem_singleton_self t)
    rw [wireBranch] at sent
    cases written : t.wire? with
    | none =>
      rw [written] at sent
      cases sent
    | some json =>
      rw [written] at sent
      cases sent
      obtain ⟨object, bound⟩ := less json written
      rw [mentionsUnder_of_isObject key object]
      exact bound
  | queries ts =>
    have listed : (wireAll ts).filterMap id = ts.filterMap wire? := by
      rw [wireAll_eq_map, List.filterMap_map]
      rfl
    have less : ∀ t ∈ ts, t.SendsLess v := less
    rw [wireBranch, settleField, listed] at sent
    cases sent
    rw [mentionsUnder_of_objects key (objects_filterMap_wire? less)]
    exact count_filterMap_wire?_le less

theorem count_settleFields_le : ∀ {fields : List (String × Branch Tree)},
    (∀ field ∈ fields, ∀ t ∈ field.2.all, t.SendsLess v) →
      (((wireFields fields).filterMap settleField).flatMap Json.mentionsUnder).count v ≤
        (fields.map (usesUnder v)).sum
  | [], _ => le_rfl
  | (key, branch) :: fields, less => by
    obtain ⟨first, others⟩ := List.forall_mem_cons.1 less
    have ih := count_settleFields_le others
    rw [wireFields, List.map_cons, List.sum_cons]
    cases sent : settleField (key, wireBranch branch) with
    | none =>
      rw [List.filterMap_cons_none sent]
      exact ih.trans (Nat.le_add_left _ _)
    | some field =>
      rw [List.filterMap_cons_some sent, List.flatMap_cons, List.count_append]
      exact Nat.add_le_add (count_settleField_le first sent) ih

theorem sendsLess : ∀ t : Tree, t.SendsLess v := by
  refine induction fun kind fields ih => ?_
  intro json sent
  by_cases combination : ∃ c : Combinator, kind = some c.kind
  · obtain ⟨c, rfl⟩ := combination
    set t : Tree := .node (some c.kind) fields with t_def
    have less : ∀ u ∈ t.children c.key, u.SendsLess v := by
      intro u mem
      obtain ⟨field, listed, inside⟩ := Branch.exists_of_mem_children mem
      exact ih field listed u inside
    have kind : t.kind = some c.kind := rfl
    rw [wire?_of_kind kind] at sent
    obtain ⟨object, same⟩ := mentions_of_combine (objects_filterMap_wire? less) sent
    rw [same]
    exact ⟨object, (count_filterMap_wire?_le less).trans (t.sum_children_le c.key)⟩
  · have other : ∀ c : Combinator, kind ≠ some c.kind := fun c same => combination ⟨c, same⟩
    rw [wire?] at sent
    obtain ⟨-, -, rfl⟩ := (settle_eq_some_iff other).1 sent
    rw [Json.mentions_obj, flatMap_mentionsUnder_withKind, uses_node]
    exact ⟨rfl, count_settleFields_le ih⟩

/-- **The wire form of a query mentions a variable no more often than the query.** -/
theorem count_wire_le (t : Tree) : t.wire.mentions.count v ≤ t.uses v := by
  unfold wire
  cases sent : t.wire? with
  | none => exact Nat.zero_le _
  | some json => exact (t.sendsLess json sent).2

end Tree

end GraphQuery
