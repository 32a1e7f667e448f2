import GraphQuery.Proofs.Dictionary
import GraphQuery.Query.Store

/-!
# Laws of branches

The sub-queries of a field, what changing the way they are referred to does to them, and plain
fields written over others.

Key definitions: `Branch.all`, `Branch.withValues`.
Key theorems: `Branch.map_congr`, `Branch.children_mapValues`, `Branch.mapValues_withValues`,
`Tree.induction`.
-/

namespace GraphQuery

namespace Branch

variable {α β γ : Type}

/-- The sub-queries of a field. -/
def all : Branch α → List α
  | .value _ => []
  | .query q => [q]
  | .queries qs => qs

@[simp] theorem all_map (f : α → β) (branch : Branch α) :
    (branch.map f).all = branch.all.map f := by
  cases branch <;> rfl

@[simp] theorem map_map (g : β → γ) (f : α → β) (branch : Branch α) :
    (branch.map f).map g = branch.map (g ∘ f) := by
  cases branch <;> simp [map]

theorem map_congr {f g : α → β} {branch : Branch α} (h : ∀ x ∈ branch.all, f x = g x) :
    branch.map f = branch.map g := by
  cases branch with
  | value json => rfl
  | query q => simpa [map, all] using h
  | queries qs => simpa [map, all] using h

theorem children_mapValues (f : α → β) (key : String) (fields : Dictionary (Branch α)) :
    children key (Dictionary.mapValues (map f) fields) = (children key fields).map f := by
  unfold children
  rw [Dictionary.find?_mapValues]
  cases Dictionary.find? key fields with
  | none => rfl
  | some branch => cases branch <;> rfl

theorem exists_of_mem_children {key : String} {fields : Dictionary (Branch α)} {x : α}
    (mem : x ∈ children key fields) : ∃ field ∈ fields, x ∈ field.2.all := by
  unfold children at mem
  cases found : Dictionary.find? key fields with
  | none =>
    rw [found] at mem
    cases mem
  | some branch =>
    rw [found] at mem
    refine ⟨(key, branch), Dictionary.mem_of_find? found, ?_⟩
    cases branch with
    | queries qs => exact mem
    | value json => cases mem
    | query q => cases mem

/-- Fields with some plain ones written over them. -/
def withValues (given : List (String × Json)) (fields : Dictionary (Branch α)) :
    Dictionary (Branch α) :=
  given.foldl (fun written field => Dictionary.insert field.1 (.value field.2) written) fields

@[simp] theorem withValues_nil (fields : Dictionary (Branch α)) : withValues [] fields = fields :=
  rfl

@[simp] theorem withValues_cons (key : String) (json : Json) (given : List (String × Json))
    (fields : Dictionary (Branch α)) : withValues ((key, json) :: given) fields =
      withValues given (fields.insert key (.value json)) := rfl

theorem mapValues_withValues (f : α → β) (given : List (String × Json)) :
    ∀ fields : Dictionary (Branch α), Dictionary.mapValues (map f) (withValues given fields) =
      withValues given (Dictionary.mapValues (map f) fields) := by
  induction given with
  | nil => exact fun _ => rfl
  | cons field given ih =>
    intro fields
    rw [withValues_cons, ih, Dictionary.mapValues_insert]
    rfl

theorem sorted_withValues (given : List (String × Json)) : ∀ {fields : Dictionary (Branch α)},
    fields.Sorted → (withValues given fields).Sorted := by
  induction given with
  | nil => exact fun h => h
  | cons field given ih => exact fun h => ih h.insert

/-- What is found is what was written last or, under another name, what was there. -/
theorem find?_withValues (given : List (String × Json)) (key : String) :
    ∀ fields : Dictionary (Branch α), (withValues given fields).find? key =
      ((withValues given ([] : Dictionary (Branch α))).find? key).or (fields.find? key) := by
  induction given with
  | nil => exact fun _ => rfl
  | cons source given ih =>
    intro fields
    obtain ⟨name, json⟩ := source
    rw [withValues_cons, withValues_cons, ih (fields.insert _ _), ih (Dictionary.insert _ _ []),
      Option.or_assoc]
    congr 1
    by_cases same : key = name
    · rw [same, Dictionary.find?_insert_self, Dictionary.find?_insert_self, Option.some_or]
    · rw [Dictionary.find?_insert_of_ne same, Dictionary.find?_insert_of_ne same]
      rfl

/-- A field is one of those written or was there before. -/
theorem mem_withValues (given : List (String × Json)) : ∀ {fields : Dictionary (Branch α)}
    {field : String × Branch α}, field ∈ withValues given fields →
      field ∈ fields ∨ ∃ source ∈ given, field = (source.1, .value source.2) := by
  induction given with
  | nil => exact fun mem => .inl mem
  | cons source given ih =>
    intro fields field mem
    rcases ih mem with before | ⟨later, listed, rfl⟩
    · rcases Dictionary.mem_insert before with rfl | before
      · exact .inr ⟨source, List.mem_cons_self, rfl⟩
      · exact .inl before
    · exact .inr ⟨later, List.mem_cons_of_mem _ listed, rfl⟩

/-- What is written under a name stands there, if the name is given once. -/
theorem find?_withValues_of_mem {key : String} {json : Json} :
    ∀ {given : List (String × Json)}, (given.map Prod.fst).Nodup → (key, json) ∈ given →
      ∀ fields : Dictionary (Branch α), (withValues given fields).find? key = some (.value json)
  | (name, first) :: given, nodup, mem, fields => by
    obtain ⟨new, nodup⟩ := List.nodup_cons.1 nodup
    rw [withValues_cons]
    rcases List.mem_cons.1 mem with same | mem
    · obtain ⟨rfl, rfl⟩ := Prod.mk.inj same
      have later : (withValues given ([] : Dictionary (Branch α))).find? key = none := by
        refine Dictionary.find?_eq_none_of_forall_ne fun field mem same => ?_
        rcases mem_withValues given mem with none | ⟨source, listed, rfl⟩
        · cases none
        · exact new (List.mem_map.2 ⟨source, listed, same⟩)
      rw [find?_withValues, later, Option.none_or, Dictionary.find?_insert_self]
    · exact find?_withValues_of_mem nodup mem _

/-- Plain fields that are written over plain ones are plain. -/
theorem withValues_mapValues (given : List (String × Json)) : ∀ entries : Dictionary Json,
    withValues given (Dictionary.mapValues value entries : Dictionary (Branch α)) =
      Dictionary.mapValues value (Dictionary.insertAll given entries) := by
  induction given with
  | nil => exact fun _ => rfl
  | cons field given ih =>
    intro entries
    rw [withValues_cons, ← Dictionary.mapValues_insert, ih]
    rfl

end Branch

namespace Tree

mutual

/-- What holds of a query when it holds of its sub-queries holds of every query. -/
theorem induction {motive : Tree → Prop}
    (step : ∀ kind fields, (∀ field ∈ fields, ∀ t ∈ field.2.all, motive t) →
      motive (.node kind fields)) : ∀ t : Tree, motive t
  | .node kind fields => step kind fields (inductionFields step fields)

theorem inductionFields {motive : Tree → Prop}
    (step : ∀ kind fields, (∀ field ∈ fields, ∀ t ∈ field.2.all, motive t) →
      motive (.node kind fields)) :
    ∀ fields : List (String × Branch Tree), ∀ field ∈ fields, ∀ t ∈ field.2.all, motive t
  | [] => nofun
  | (_, branch) :: rest =>
    List.forall_mem_cons.2 ⟨inductionBranch step branch, inductionFields step rest⟩

theorem inductionBranch {motive : Tree → Prop}
    (step : ∀ kind fields, (∀ field ∈ fields, ∀ t ∈ field.2.all, motive t) →
      motive (.node kind fields)) : ∀ branch : Branch Tree, ∀ t ∈ branch.all, motive t
  | .value _ => nofun
  | .query t => List.forall_mem_singleton.2 (induction step t)
  | .queries ts => inductionAll step ts

theorem inductionAll {motive : Tree → Prop}
    (step : ∀ kind fields, (∀ field ∈ fields, ∀ t ∈ field.2.all, motive t) →
      motive (.node kind fields)) : ∀ ts : List Tree, ∀ t ∈ ts, motive t
  | [] => nofun
  | t :: ts => List.forall_mem_cons.2 ⟨induction step t, inductionAll step ts⟩

end

end Tree

/-- The queries under a name, as they are sent. -/
theorem Tree.children_wireFields (key : String) (fields : Dictionary (Branch Tree)) :
    Branch.children key (wireFields fields) = (Branch.children key fields).map wire? := by
  have mapped : wireFields fields = Dictionary.mapValues (Branch.map wire?) fields := by
    rw [wireFields_eq_mapValues]
    exact Dictionary.mapValues_congr fun entry _ => wireBranch_eq_map entry.2
  rw [mapped, Branch.children_mapValues]

/-- Writing plain fields into a node. -/
theorem Node.foldl_set (given : List (String × Json)) : ∀ n : Node,
    given.foldl (fun n field => n.set field.1 (.value field.2)) n =
      ⟨n.kind, Branch.withValues given n.fields⟩ := by
  induction given with
  | nil => exact fun _ => rfl
  | cons field given ih => exact fun n => ih (n.set field.1 (.value field.2))

end GraphQuery
