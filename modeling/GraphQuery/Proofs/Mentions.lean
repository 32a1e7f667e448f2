import GraphQuery.Proofs.Preservation

/-!
# The variables of a query

A variable stands in a slot or in a list of names. What a call writes into its node has the
variables that the arguments of the call name, each as often as it is named there: slots neither
lose variables nor make them up, and neither do paths, templates and the lists of hosts.

Key definitions: `Json.mentions`, `Term.mentions`, `Names`, `Call.named`.
Key theorems: `mentions_fill`, `Builder.names_slotFields`, `Host.names_fields`, `Call.names_edit`.
-/

namespace GraphQuery

namespace Json

/-- Whether the items of a field are names of variables. -/
def listsVariables (key : String) : Bool :=
  key = "variables" || key = "group_by" || key = "template"

/-- The variables that the value of a field names itself. -/
def namedUnder (key : String) : Json → List String
  | .str name => if key = "variable" then [name] else []
  | .arr items => if listsVariables key then items.filterMap text? else []
  | _ => []

mutual

/-- The variables in a value, each as often as it occurs. -/
def mentions : Json → List String
  | .arr items => mentionsOfItems items
  | .obj fields => mentionsOfFields fields
  | _ => []

def mentionsOfItems : List Json → List String
  | [] => []
  | item :: rest => mentions item ++ mentionsOfItems rest

def mentionsOfFields : List (String × Json) → List String
  | [] => []
  | (key, value) :: rest => namedUnder key value ++ mentions value ++ mentionsOfFields rest

end

/-- The variables in a field. -/
def mentionsUnder (field : String × Json) : List String :=
  namedUnder field.1 field.2 ++ field.2.mentions

@[simp] theorem mentions_str (text : String) : mentions (.str text) = [] := rfl

theorem mentions_arr : ∀ items : List Json, mentions (.arr items) = items.flatMap mentions
  | [] => rfl
  | item :: rest => by
    have ih := mentions_arr rest
    rw [mentions] at ih ⊢
    rw [mentionsOfItems, ih, List.flatMap_cons]

theorem mentions_obj (fields : List (String × Json)) :
    mentions (.obj fields) = fields.flatMap mentionsUnder := by
  rw [mentions]
  induction fields with
  | nil => rfl
  | cons field rest ih =>
    obtain ⟨key, value⟩ := field
    rw [mentionsOfFields, ih, List.flatMap_cons]
    rfl

/-- Whether the value of a field may name variables itself. -/
def namesVariables (key : String) : Bool := key = "variable" || listsVariables key

/-- A field of another name has the variables of its value. -/
theorem mentionsUnder_eq {key : String} (other : namesVariables key = false) (value : Json) :
    mentionsUnder (key, value) = value.mentions := by
  obtain ⟨single, several⟩ : key ≠ "variable" ∧ listsVariables key = false := by
    simpa [namesVariables] using other
  have none : namedUnder key value = [] := by
    cases value <;> simp [namedUnder, single, several]
  rw [mentionsUnder, none, List.nil_append]

/-- A new field without variables adds none. -/
theorem flatMap_mentionsUnder_insertNew {key : String} {value : Json}
    (silent : mentionsUnder (key, value) = []) (fields : Dictionary Json) :
    (Dictionary.insertNew key value fields).flatMap mentionsUnder =
      fields.flatMap mentionsUnder := by
  have inserted : ∀ fields : Dictionary Json, fields.find? key = none →
      (fields.insert key value).flatMap mentionsUnder = fields.flatMap mentionsUnder := by
    intro fields
    induction fields with
    | nil => simp [Dictionary.insert, silent]
    | cons field rest ih =>
      intro absent
      obtain ⟨other, json⟩ := field
      by_cases same : key = other
      · simp [Dictionary.find?, same] at absent
      · have absent : Dictionary.find? key rest = none := by
          simpa [Dictionary.find?, same] using absent
        by_cases less : key < other
        · simp [Dictionary.insert, less, silent]
        · simp [Dictionary.insert, less, same, ih absent]
  unfold Dictionary.insertNew
  by_cases present : Dictionary.contains key fields
  · rw [if_pos present]
  · rw [if_neg present]
    exact inserted fields (by simpa [Dictionary.contains] using present)

/-- The `@type` of a node has no variables. -/
theorem mentionsUnder_type (tag : String) : mentionsUnder ("@type", .str tag) = [] := rfl

/-- An object of a kind and one field has the variables of that field. -/
theorem mentions_tagged (tag : String) {key : String} (other : namesVariables key = false)
    (value : Json) : mentions (.obj [("@type", .str tag), (key, value)]) = value.mentions := by
  rw [mentions_obj, List.flatMap_cons, List.flatMap_singleton, mentionsUnder_type,
    mentionsUnder_eq other, List.nil_append]

end Json

namespace Term

mutual

/-- The variables that a term names. -/
def mentions : Term → List String
  | .variable name => [name]
  | .str s => (variableOf? s).toList
  | .json value => value.mentions
  | .list items => mentionsAll items
  | _ => []

def mentionsAll : List Term → List String
  | [] => []
  | item :: rest => mentions item ++ mentionsAll rest

end

/-- The variable that a term names where only names of variables may stand. -/
def asVariable : Term → List String
  | .variable name => [name]
  | .str s => [stripVariable s]
  | _ => []

end Term

/-! ### Slots -/

/-- A literal made of a value without variables has none. -/
theorem mentions_fillLiteral (slot : Slot) (target : Option String) (term : Term) {value : Json}
    (silent : value.mentions = []) :
    ((fillLiteral target term value).toJson slot).mentions = [] := by
  rw [fillLiteral, Filling.toJson, Json.mentions_tagged _ rfl, Json.mentions_tagged _ rfl, silent]

theorem mentions_fillString (vocabulary : Vocabulary) (slot : Slot) (target : Option String)
    (s : String) : ((fillString vocabulary slot target s).toJson slot).mentions =
      (variableOf? s).toList := by
  unfold fillString
  cases variableOf? s with
  | some name => rw [Filling.toJson]; rfl
  | none =>
    by_cases node : namesNode vocabulary slot s
    · simp only [if_pos node]
      rw [Filling.toJson, Json.mentions_tagged _ rfl, Json.mentions_str]
      rfl
    · simp only [if_neg node]
      exact mentions_fillLiteral slot target (.str s) (Json.mentions_str s)

theorem mentions_fillJson (slot : Slot) (target : Option String) (json : Json) :
    ((fillJson target json).toJson slot).mentions = json.mentions := by
  cases json with
  | obj fields =>
    by_cases literal : Dictionary.contains "@value" fields
    · rw [fillJson, if_pos literal, Filling.toJson, Json.mentions_tagged _ rfl, Json.mentions_obj,
        Json.flatMap_mentionsUnder_insertNew (Json.mentionsUnder_type _), Json.mentions_obj]
    · rw [fillJson, if_neg literal, Filling.toJson]
  | _ =>
    rw [fillJson, Filling.toJson]
    intro fields same
    cases same

mutual

/-- **A slot has the variables that the term names.** -/
theorem mentions_fill (vocabulary : Vocabulary) (slot : Slot) (target : Option String) :
    ∀ {term : Term} {filling : Filling}, fill vocabulary slot target term = .ok filling →
      (filling.toJson slot).mentions = term.mentions
  | .null, _, found => nomatch found
  | .variable name, _, found => by
    cases found
    rw [Filling.toJson, Term.mentions]
    rfl
  | .str s, _, found => by
    cases found
    rw [mentions_fillString, Term.mentions]
  | .text s, _, found => by
    cases found
    exact mentions_fillLiteral slot target (.text s) rfl
  | .int n, _, found => by
    cases found
    exact mentions_fillLiteral slot target (.int n) rfl
  | .float x, _, found => by
    cases found
    have silent : (floatJson x).mentions = [] := by
      unfold floatJson
      split <;> rfl
    exact mentions_fillLiteral slot target (.float x) silent
  | .decimal d, _, found => by
    cases found
    exact mentions_fillLiteral slot target (.decimal d) rfl
  | .bool b, _, found => by
    cases found
    exact mentions_fillLiteral slot target (.bool b) rfl
  | .moment s, _, found => by
    cases found
    exact mentions_fillLiteral slot target (.moment s) rfl
  | .json value, _, found => by
    cases found
    exact mentions_fillJson slot target value
  | .list items, filling, found => by
    rw [fill] at found
    by_cases node : slot = .node
    · rw [if_pos node] at found
      cases found
    · rw [if_neg node] at found
      obtain ⟨fillings, filled, rfl⟩ := map_eq_ok_iff.1 found
      have listed := mentions_fillAll vocabulary slot target filled
      rw [Filling.toJson, Json.mentions_tagged _ rfl, Json.mentions_arr,
        Filling.toJsonAll_eq_map, List.flatMap_map, listed, Term.mentions]

theorem mentions_fillAll (vocabulary : Vocabulary) (slot : Slot) (target : Option String) :
    ∀ {terms : List Term} {fillings : List Filling},
      fillAll vocabulary slot target terms = .ok fillings →
        fillings.flatMap (fun filling => (filling.toJson slot).mentions) =
          Term.mentionsAll terms
  | [], _, found => by
    cases found
    rfl
  | term :: terms, _, found => by
    obtain ⟨first, filled, found⟩ := bind_eq_ok_iff.1 found
    obtain ⟨others, filled₁, built⟩ := bind_eq_ok_iff.1 found
    cases built
    rw [List.flatMap_cons, mentions_fill vocabulary slot target filled,
      mentions_fillAll vocabulary slot target filled₁]
    rfl

end

namespace Position

theorem mentions_fill (p : Position) (vocabulary : Vocabulary) (slot : Slot)
    (target : Option String) (term : Term) :
    Yields (p.fill vocabulary slot target term) fun json => json.mentions = term.mentions := by
  refine .map fun filling found => ?_
  exact GraphQuery.mentions_fill vocabulary slot target (mapError_eq_ok_iff.1 found)

theorem mentions_reference (p : Position) (vocabulary : Vocabulary) (label : String)
    (term : Term) :
    Yields (p.reference vocabulary label term) fun json => json.mentions = term.mentions := by
  unfold reference
  split
  · exact p.mentions_fill _ _ _ _
  · exact p.mentions_fill _ _ _ _
  · exact p.mentions_fill _ _ _ _
  · exact .error

/-- A list of names of variables names them. -/
theorem named_variableNames (p : Position) {key : String} (lists : Json.listsVariables key)
    (terms : List Term) : Yields (p.variableNames terms) fun json =>
      Json.mentionsUnder (key, json) = terms.flatMap Term.asVariable := by
  refine .map fun names found => ?_
  have listed : names = terms.flatMap Term.asVariable := by
    have each := mapM_eq_ok_iff.1 found
    clear found
    induction each with
    | nil => rfl
    | @cons term name terms names given _ ih =>
      have alone : term.asVariable = [name] := by
        cases term <;> cases given <;> rfl
      rw [List.flatMap_cons, alone, ← ih, List.singleton_append]
  have silent : (names.map Json.str).flatMap Json.mentions = [] := by simp
  rw [Json.mentionsUnder, Json.mentions_arr, silent, List.append_nil, Json.namedUnder, if_pos lists,
    List.filterMap_map, ← listed]
  exact List.filterMap_some

end Position

namespace Pattern

mutual

/-- A pattern has no variables. -/
theorem mentions_toJson : ∀ pattern : Pattern, pattern.toJson.mentions = []
  | .forward name => rfl
  | .anyStep => rfl
  | .backward name => rfl
  | .sequence steps => by
    rw [toJson, Json.mentions_tagged _ rfl, mentions_toJsonAll steps]
  | .choice branches => by
    rw [toJson, Json.mentions_tagged _ rfl, mentions_toJsonAll branches]
  | .star inner => by rw [toJson, Json.mentions_tagged _ rfl, mentions_toJson inner]
  | .plus inner => by rw [toJson, Json.mentions_tagged _ rfl, mentions_toJson inner]
  | .times inner low high => by
    have repeated : Json.mentionsUnder ("times", inner.toJson) = [] :=
      (Json.mentionsUnder_eq rfl _).trans (mentions_toJson inner)
    rw [toJson, Json.mentions_obj, List.flatMap_cons, List.flatMap_cons, List.flatMap_cons,
      repeated]
    rfl

theorem mentions_toJsonAll : ∀ patterns : List Pattern,
    (Json.arr (toJsonAll patterns)).mentions = []
  | [] => rfl
  | pattern :: patterns => by
    have ih := mentions_toJsonAll patterns
    rw [Json.mentions_arr] at ih ⊢
    rw [toJsonAll, List.flatMap_cons, mentions_toJson pattern, ih]
    rfl

end

end Pattern

/-! ### Fields -/

/-- A slot is no list of names. -/
theorem Operation.slots_other (op : Operation) :
    ∀ slot ∈ op.slots, Json.namesVariables slot.1 = false := by
  cases op <;> decide

theorem Operation.distinct_parameters (op : Operation) : op.parameters.Nodup := by
  cases op <;> decide

/-- Fields under some of the given names, with the variables in them. -/
structure Names (fields : List (String × Json)) (keys named : List String) : Prop where
  keys : (fields.map Prod.fst).Sublist keys
  named : fields.flatMap Json.mentionsUnder = named

namespace Names

variable {fields more : List (String × Json)} {keys keys₁ named named₁ : List String}

theorem nil : Names [] keys [] := ⟨List.nil_sublist _, rfl⟩

theorem cons {key : String} {value : Json} (other : Json.namesVariables key = false)
    (alone : value.mentions = named) (h : Names fields keys named₁) :
    Names ((key, value) :: fields) (key :: keys) (named ++ named₁) :=
  ⟨h.keys.cons_cons key, by rw [List.flatMap_cons, Json.mentionsUnder_eq other, alone, h.named]⟩

theorem single {key : String} {value : Json} (other : Json.namesVariables key = false)
    (alone : value.mentions = named) : Names [(key, value)] [key] named := by
  rw [← List.append_nil named]
  exact .cons other alone .nil

theorem mono (h : Names fields keys named) (sub : keys.Sublist keys₁) : Names fields keys₁ named :=
  ⟨h.keys.trans sub, h.named⟩

theorem append (h : Names fields keys named) (h₁ : Names more keys₁ named₁) :
    Names (fields ++ more) (keys ++ keys₁) (named ++ named₁) := by
  refine ⟨?_, by rw [List.flatMap_append, h.named, h₁.named]⟩
  rw [List.map_append]
  exact h.keys.append h₁.keys

end Names

namespace Builder

variable (vocabulary : Vocabulary)

theorem names_edgeParts (op : Operation) (subject predicate object : Term) :
    Yields (edgeParts vocabulary op subject predicate object) fun fields =>
      Names fields ["subject", "predicate", "object"]
        ([subject, predicate, object].flatMap Term.mentions) :=
  .bind fun _ found => .bind fun _ found₁ => .bind fun _ found₂ => .ok <|
    .cons rfl (Position.mentions_reference _ _ _ _ _ found) <|
      .cons rfl (Position.mentions_reference _ _ _ _ _ found₁) <|
        .cons rfl (Position.mentions_fill _ _ _ _ _ _ found₂) .nil

theorem names_edgeFields (op : Operation) (subject predicate object : Term)
    (graph : Option String) :
    Yields (edgeFields vocabulary op subject predicate object graph) fun fields =>
      Names fields ["subject", "predicate", "object", "graph"]
        ([subject, predicate, object].flatMap Term.mentions) := by
  have parts := names_edgeParts vocabulary op subject predicate object
  cases graph with
  | none =>
    intro fields found
    obtain ⟨keys, named⟩ := parts fields found
    exact ⟨keys.trans (List.sublist_append_left _ ["graph"]), named⟩
  | some graph =>
    simp only [edgeFields]
    by_cases blank : isBlank graph
    · rw [if_pos blank]
      exact .error
    · rw [if_neg blank]
      refine .bind fun fields found => .ok ?_
      have last : Names [("graph", .str graph)] ["graph"] [] := .single rfl rfl
      have all := (parts fields found).append last
      rwa [List.append_nil] at all

theorem names_pathFields (subject : Term) (pattern : Pattern) (object path : Term) :
    Yields (pathFields vocabulary subject pattern object path) fun fields =>
      Names fields ["subject", "pattern", "object", "path"]
        ([subject, object, path].flatMap Term.mentions) := by
  refine .bind fun _ found => .bind fun _ found₁ => .bind fun bound found₂ => .ok ?_
  have last : Names bound ["path"] path.mentions := by
    unfold optionalArgument at found₂
    by_cases null : path.isNull
    · rw [if_pos null] at found₂
      cases found₂
      cases path <;> first | exact .nil | cases null
    · rw [if_neg null] at found₂
      obtain ⟨json, filled, rfl⟩ := map_eq_ok_iff.1 found₂
      exact .single rfl (Position.mentions_fill _ _ _ _ _ _ filled)
  rw [← List.append_nil path.mentions] at last
  have second : Names (("object", _) :: bound) ["object", "path"] _ :=
    .cons rfl (Position.mentions_fill _ _ _ _ _ _ found₁) last
  have first : Names (("pattern", pattern.toJson) :: ("object", _) :: bound)
      ["pattern", "object", "path"] _ := .cons rfl pattern.mentions_toJson second
  exact .cons rfl (Position.mentions_reference _ _ _ _ _ found) first

/-- A number that belongs to a graph or a database. -/
theorem names_measureFields (op : Operation) {field : String}
    (other : Json.namesVariables field = false) (resource : String) (amount : Term) :
    Yields (measureFields vocabulary op field resource amount) fun fields =>
      Names fields ["resource", field] amount.mentions :=
  .bind fun _ _ => .bind fun _ found => .ok <|
    .cons rfl rfl (.single other (Position.mentions_fill _ _ _ _ _ _ found))

/-- Items that come to nothing may be left out. -/
theorem flatMap_filter_of_silent {α β : Type} {p : α → Bool} {f : α → List β}
    (silent : ∀ a, p a = false → f a = []) : ∀ items : List α,
      (items.filter p).flatMap f = items.flatMap f
  | [] => rfl
  | a :: items => by
    have ih := flatMap_filter_of_silent silent items
    by_cases kept : p a
    · rw [List.filter_cons_of_pos kept, List.flatMap_cons, List.flatMap_cons, ih]
    · have none : f a = [] := silent a (by simpa using kept)
      rw [List.filter_cons_of_neg kept, List.flatMap_cons, none, ih, List.nil_append]

theorem names_fillArguments (op : Operation) {arguments : List ((String × Slot) × Term)}
    {fields : List (String × Json)} (listed : ∀ argument ∈ arguments, argument.1 ∈ op.slots)
    (found : List.Forall₂ (fun argument field => fillArgument vocabulary op argument = .ok field)
      arguments fields) :
    Names fields (arguments.map fun argument => argument.1.1)
      (arguments.flatMap fun argument => argument.2.mentions) := by
  induction found with
  | nil => exact .nil
  | @cons argument field arguments fields filled _ ih =>
    have ⟨first, others⟩ := List.forall_mem_cons.1 listed
    obtain ⟨json, found, rfl⟩ := map_eq_ok_iff.1 filled
    exact .cons (op.slots_other argument.1 first) (Position.mentions_fill _ _ _ _ _ _ found)
      (ih others)

/-- A slot that is left out has no variables, so the fields have those of all the terms. -/
theorem names_slotFields (op : Operation) {terms : List Term}
    (complete : terms.length = op.slots.length) :
    Yields (slotFields vocabulary op terms) fun fields =>
      Names fields (op.slots.map Prod.fst)
        ((preparedArguments op terms).flatMap Term.mentions) := by
  intro fields found
  set prepared := preparedArguments op terms with prepared_def
  have length : prepared.length = op.slots.length := by
    rw [prepared_def, length_preparedArguments, complete]
  have within : (slotArguments op terms).Sublist (op.slots.zip prepared) := List.filter_sublist
  obtain ⟨keys, named⟩ := names_fillArguments vocabulary op
    (fun argument mem => (List.of_mem_zip (within.subset mem)).1) (mapM_eq_ok_iff.1 found)
  refine ⟨keys.trans ?_, named.trans ?_⟩
  · have slots := within.map fun argument => argument.1.1
    rwa [prepared_def, names_zip_preparedArguments complete] at slots
  · have kept : (slotArguments op terms).flatMap (fun argument => argument.2.mentions) =
        (op.slots.zip prepared).flatMap fun argument => argument.2.mentions := by
      refine flatMap_filter_of_silent (fun argument left => ?_) _
      obtain ⟨slot, term⟩ := argument
      have null : term.isNull = true := by
        simp only [Bool.not_eq_false', Bool.and_eq_true] at left
        exact left.2
      cases term <;> first | rfl | cases null
    have snd := List.map_snd_zip length.le
    rw [kept, ← List.flatMap_map (f := Prod.snd) (g := Term.mentions), snd]

end Builder

namespace Host

/-- The variables that the arguments of a host name. -/
def named : Host → List String
  | select vars | distinct vars => vars.flatMap Term.asVariable
  | orderBy keys => keys.map OrderKey.variableName
  | groupBy vars template grouped => vars.flatMap Term.asVariable ++
      (templateTerms template).flatMap Term.asVariable ++ grouped.mentions
  | count amount => amount.mentions
  | _ => []

theorem names_nonBlankField (h : Host) {field : String}
    (other : Json.namesVariables field = false) (text : String) :
    Yields (h.nonBlankField field text) fun fields => Names fields [field] [] :=
  .map fun _ _ => .single other rfl

theorem names_variablesField (h : Host) {field : String} (lists : Json.listsVariables field)
    (terms : List Term) : Yields (h.variablesField field terms) fun fields =>
      Names fields [field] (terms.flatMap Term.asVariable) := by
  refine .map fun names found => ⟨List.Sublist.refl _, ?_⟩
  rw [List.flatMap_singleton, Position.named_variableNames _ lists _ _ found]

theorem mentions_ordering (keys : List OrderKey) :
    (Json.arr (keys.map OrderKey.toJson)).mentions = keys.map OrderKey.variableName := by
  have alone : ∀ key : OrderKey, key.toJson.mentions = [key.variableName] := fun _ => rfl
  rw [Json.mentions_arr, List.flatMap_map]
  simp only [alone]
  exact List.map_eq_flatMap.symm

/-- **The node of a host has the variables that the arguments of the host name.** -/
theorem names_fields (vocabulary : Vocabulary) (h : Host) :
    Yields (h.fields vocabulary) fun fields => Names fields h.operation.parameters h.named := by
  cases h with
  | not | optional | once | immediately => exact .ok .nil
  | select terms =>
    intro fields found
    exact (names_variablesField _ rfl terms fields found).mono (List.sublist_append_left _ _)
  | distinct terms =>
    intro fields found
    exact (names_variablesField _ rfl terms fields found).mono (List.sublist_append_left _ _)
  | limit n =>
    have field : Names [("limit", .int n.toNat)] ["limit"] [] := .single rfl rfl
    exact .ok (field.mono (List.sublist_append_left _ _))
  | start n =>
    have field : Names [("start", .int n.toNat)] ["start"] [] := .single rfl rfl
    exact .ok (field.mono (List.sublist_append_left _ _))
  | orderBy keys =>
    simp only [fields]
    by_cases none : keys.isEmpty
    · rw [if_pos none]
      exact .error
    · rw [if_neg none]
      have field : Names [("ordering", .arr (keys.map OrderKey.toJson))] ["ordering"] _ :=
        .single rfl (mentions_ordering keys)
      exact .ok (field.mono (List.sublist_append_left _ _))
  | groupBy terms template grouped =>
    refine .bind fun first found => .bind fun second found₁ => .bind fun value found₂ => .ok ?_
    have groups := names_variablesField _ rfl terms first found
    have templates := names_variablesField _ rfl (templateTerms template) second found₁
    have last : Names [("grouped", value)] ["grouped"] grouped.mentions :=
      .single rfl (Position.mentions_fill _ _ _ _ _ _ found₂)
    exact ((groups.append templates).append last).mono (List.sublist_append_left _ _)
  | count amount =>
    refine .map fun value found => ?_
    have field : Names [("count", value)] ["count"] amount.mentions :=
      .single rfl (Position.mentions_fill _ _ _ _ _ _ found)
    exact field.mono (List.sublist_append_left _ _)
  | fromGraph graph =>
    intro fields found
    exact (names_nonBlankField _ rfl graph fields found).mono (List.sublist_append_left _ _)
  | intoGraph graph =>
    intro fields found
    exact (names_nonBlankField _ rfl graph fields found).mono (List.sublist_append_left _ _)
  | usingCollection collection =>
    intro fields found
    exact (names_nonBlankField _ rfl collection fields found).mono (List.sublist_append_left _ _)
  | comment text =>
    have field : Names [("comment", Term.typedValue "xsd:string" (.str text))] ["comment"] [] :=
      .single rfl rfl
    exact .ok (field.mono (List.sublist_append_left _ _))

end Host

/-! ### Calls -/

/-- The variables that the arguments of a call name, those of its sub-queries apart. The arguments
of `star` are variables of fixed names. -/
def Call.named : Call → List String
  | edge _ subject predicate object _ | replace subject predicate object _ =>
    [subject, predicate, object].flatMap Term.mentions
  | star _ => ["Subject", "Predicate", "Object"]
  | path subject _ object bound | along subject _ object bound =>
    [subject, object, bound].flatMap Term.mentions
  | size _ amount | tripleCount _ amount => amount.mentions
  | fill op terms _ _ => (Builder.preparedArguments op terms).flatMap Term.mentions
  | about host _ => host.named
  | and _ | or _ | when _ _ | truth => []

namespace Edit

/-- The fields that an edit writes. -/
def fields : Edit → List (String × Json)
  | write _ fields | host _ fields _ => fields
  | when _ _ | and _ | or _ => []

end Edit

/-- **A call that writes one node writes the variables that its arguments name**, into fields of
different names. -/
theorem Call.names_edit {vocabulary : Vocabulary} {expandsPaths : Bool} {call : Call} {e : Edit}
    (single : call.operation.isComposite = false)
    (found : call.edit vocabulary expandsPaths = .ok e) :
    ∃ keys : List String, keys.Nodup ∧ Names e.fields keys call.named := by
  cases call with
  | edge kind subject predicate object graph =>
    obtain ⟨fields, written, rfl⟩ := map_eq_ok_iff.1 found
    exact ⟨_, by decide, Builder.names_edgeFields _ _ _ _ _ _ _ written⟩
  | star graph =>
    obtain ⟨fields, written, rfl⟩ := map_eq_ok_iff.1 found
    exact ⟨_, by decide, Builder.names_edgeFields _ _ _ _ _ _ _ written⟩
  | replace subject predicate object graph => cases graph <;> cases single
  | path subject pattern object bound =>
    obtain ⟨steps, -, found⟩ := bind_eq_ok_iff.1 found
    obtain ⟨fields, written, found⟩ := bind_eq_ok_iff.1 found
    cases found
    exact ⟨_, by decide, Builder.names_pathFields _ _ _ _ _ _ written⟩
  | along subject pattern object bound =>
    obtain ⟨fields, written, rfl⟩ := map_eq_ok_iff.1 found
    exact ⟨_, by decide, Builder.names_pathFields _ _ _ _ _ _ written⟩
  | size resource amount =>
    obtain ⟨fields, written, rfl⟩ := map_eq_ok_iff.1 found
    exact ⟨_, by decide, Builder.names_measureFields _ _ rfl _ _ _ written⟩
  | tripleCount resource amount =>
    obtain ⟨fields, written, rfl⟩ := map_eq_ok_iff.1 found
    exact ⟨_, by decide, Builder.names_measureFields _ _ rfl _ _ _ written⟩
  | fill op terms slotted complete =>
    obtain ⟨fields, written, rfl⟩ := map_eq_ok_iff.1 found
    have names := Builder.names_slotFields _ op complete _ written
    rw [← Operation.parameters_of_slots slotted] at names
    exact ⟨_, op.distinct_parameters, names⟩
  | and qs | or qs | when condition consequent | truth =>
    cases found
    exact ⟨[], List.nodup_nil, .nil⟩
  | about host q =>
    obtain ⟨fields, written, rfl⟩ := map_eq_ok_iff.1 found
    exact ⟨_, host.operation.distinct_parameters, host.names_fields vocabulary _ written⟩

end GraphQuery
