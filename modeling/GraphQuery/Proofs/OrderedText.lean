import GraphQuery.Json.Reader
import GraphQuery.Proofs.Dictionary

/-!
# The order of what is read

In a JSON text the fields of an object may come in any order, and a name may come twice. The value
that is read has them in the order of the names, each name once, and so has every value inside it:
a source can only stand for ordered values. Scalars are ordered when the tokens are made, the states
of the reader hold nothing but such sources, and an object is filled name by name.

Key definitions: `Json.Source.Tidy`, `Json.Token.Tidy`, `Json.Frame.Tidy`, `Json.State.Tidy`.
Key theorems: `Json.ordered_object`, `Json.State.tidy_run`, `Json.tidy_tokensFrom`,
`Json.ordered_of_ofText?`.
-/

namespace GraphQuery.Json

/-- Filling an object with ordered values gives an ordered object. -/
theorem ordered_object {fields : List (String × Json)} (h : ∀ field ∈ fields, Ordered field.2) :
    Ordered (object fields) := by
  refine ⟨Dictionary.sorted_ofList fields, (orderedFields_iff _).2 fun field mem => ?_⟩
  rcases Dictionary.mem_insertAll fields mem with given | old
  · exact h field given
  · cases old

/-! ### Sources -/

/-- A source that stands for ordered values only. -/
def Source.Tidy (source : Source) : Prop := ∀ json, source.json? = some json → json.Ordered

namespace Source

theorem tidy_text (s : Option String) : (text s).Tidy := by
  intro json read
  rw [json?] at read
  obtain ⟨s, -, rfl⟩ := Option.map_eq_some_iff.1 read
  trivial

theorem tidy_scalar {json : Option Json} (h : ∀ v ∈ json, v.Ordered) : (scalar json).Tidy := by
  intro v read
  rw [json?] at read
  exact h v read

theorem ordered_of_items? : ∀ {items : List Source} {values : List Json},
    (∀ item ∈ items, item.Tidy) → items? items = some values → ∀ v ∈ values, v.Ordered
  | [], _, _, read => by
    rw [items?] at read
    cases read
    exact List.forall_mem_nil _
  | item :: rest, _, tidy, read => by
    obtain ⟨here, tidy⟩ := List.forall_mem_cons.1 tidy
    rw [items?] at read
    obtain ⟨first, read_first, read⟩ := Option.bind_eq_some_iff.1 read
    obtain ⟨others, read_others, same⟩ := Option.bind_eq_some_iff.1 read
    cases same
    exact List.forall_mem_cons.2 ⟨here first read_first, ordered_of_items? tidy read_others⟩

theorem ordered_of_fields? : ∀ {fields : List (Option String × Source)}
    {values : List (String × Json)}, (∀ field ∈ fields, field.2.Tidy) →
      fields? fields = some values → ∀ v ∈ values, v.2.Ordered
  | [], _, _, read => by
    rw [fields?] at read
    cases read
    exact List.forall_mem_nil _
  | (_, value) :: rest, _, tidy, read => by
    obtain ⟨here, tidy⟩ := List.forall_mem_cons.1 tidy
    rw [fields?] at read
    obtain ⟨key, -, read⟩ := Option.bind_eq_some_iff.1 read
    obtain ⟨first, read_first, read⟩ := Option.bind_eq_some_iff.1 read
    obtain ⟨others, read_others, same⟩ := Option.bind_eq_some_iff.1 read
    cases same
    exact List.forall_mem_cons.2 ⟨here first read_first, ordered_of_fields? tidy read_others⟩

theorem tidy_arr {items : List Source} (tidy : ∀ item ∈ items, item.Tidy) : (arr items).Tidy := by
  intro json read
  rw [json?] at read
  obtain ⟨values, read_items, rfl⟩ := Option.map_eq_some_iff.1 read
  exact (orderedItems_iff values).2 (ordered_of_items? tidy read_items)

theorem tidy_obj {fields : List (Option String × Source)}
    (tidy : ∀ field ∈ fields, field.2.Tidy) : (obj fields).Tidy := by
  intro json read
  rw [json?] at read
  obtain ⟨values, read_fields, rfl⟩ := Option.map_eq_some_iff.1 read
  exact ordered_object (ordered_of_fields? tidy read_fields)

end Source

/-! ### The states of the reader -/

/-- A token whose scalar, if it is one, is ordered. -/
def Token.Tidy : Token → Prop
  | .scalar json => ∀ v ∈ json, v.Ordered
  | _ => True

/-- An open container with nothing but tidy sources so far. -/
def Frame.Tidy : Frame → Prop
  | .array items => ∀ item ∈ items, item.Tidy
  | .object fields _ => ∀ field ∈ fields, field.2.Tidy

namespace State

/-- A state that holds nothing but tidy sources. -/
def Tidy : State → Prop
  | .value stack | .firstItem stack | .firstField stack => ∀ frame ∈ stack, frame.Tidy
  | .field fields stack | .colon fields _ stack =>
    (∀ field ∈ fields, field.2.Tidy) ∧ ∀ frame ∈ stack, frame.Tidy
  | .after source top stack => source.Tidy ∧ top.Tidy ∧ ∀ frame ∈ stack, frame.Tidy
  | .done source => source.Tidy

variable {state next : State} {stack : List Frame} {source : Source} {token : Token}

theorem tidy_complete (tidy : source.Tidy) (stack_tidy : ∀ frame ∈ stack, frame.Tidy) :
    (complete source stack).Tidy := by
  cases stack with
  | nil => exact tidy
  | cons top stack => exact ⟨tidy, List.forall_mem_cons.1 stack_tidy⟩

theorem tidy_start (tidy : ∀ frame ∈ stack, frame.Tidy) (token_tidy : token.Tidy)
    (started : start stack token = some next) : next.Tidy := by
  cases token with
  | text s =>
    cases started
    exact tidy_complete (Source.tidy_text s) tidy
  | scalar json =>
    cases started
    exact tidy_complete (Source.tidy_scalar token_tidy) tidy
  | openArray | openObject =>
    cases started
    exact tidy
  | _ => cases started

/-- **One token keeps a state tidy.** -/
theorem tidy_step (tidy : state.Tidy) (token_tidy : token.Tidy)
    (stepped : state.step token = some next) : next.Tidy := by
  revert stepped
  fun_cases step state token with
  | case1 stack token => exact tidy_start tidy token_tidy
  | case2 stack =>
    rintro ⟨⟩
    exact tidy_complete (Source.tidy_arr (List.forall_mem_nil _)) tidy
  | case3 stack token =>
    exact tidy_start (List.forall_mem_cons.2 ⟨List.forall_mem_nil _, tidy⟩) token_tidy
  | case4 stack =>
    rintro ⟨⟩
    exact tidy_complete (Source.tidy_obj (List.forall_mem_nil _)) tidy
  | case5 stack key =>
    rintro ⟨⟩
    exact ⟨List.forall_mem_nil _, tidy⟩
  | case6 fields stack key =>
    rintro ⟨⟩
    exact tidy
  | case7 fields key stack =>
    rintro ⟨⟩
    exact List.forall_mem_cons.2 tidy
  | case8 source items stack =>
    obtain ⟨here, items_tidy, tidy⟩ := tidy
    rintro ⟨⟩
    exact List.forall_mem_cons.2 ⟨List.forall_mem_cons.2 ⟨here, items_tidy⟩, tidy⟩
  | case9 source items stack =>
    -- The items were held in reverse, the last one first.
    obtain ⟨here, items_tidy, tidy⟩ := tidy
    rintro ⟨⟩
    refine tidy_complete (Source.tidy_arr ?_) tidy
    have all : ∀ item ∈ source :: items, item.Tidy :=
      List.forall_mem_cons.2 ⟨here, items_tidy⟩
    exact fun item mem => all item (List.mem_reverse.1 mem)
  | case10 source fields key stack =>
    obtain ⟨here, fields_tidy, tidy⟩ := tidy
    rintro ⟨⟩
    exact ⟨List.forall_mem_cons.2 ⟨here, fields_tidy⟩, tidy⟩
  | case11 source fields key stack =>
    obtain ⟨here, fields_tidy, tidy⟩ := tidy
    rintro ⟨⟩
    refine tidy_complete (Source.tidy_obj ?_) tidy
    have all : ∀ field ∈ (key, source) :: fields, field.2.Tidy :=
      List.forall_mem_cons.2 ⟨here, fields_tidy⟩
    exact fun field mem => all field (List.mem_reverse.1 mem)
  | case12 => nofun

/-- Tidy tokens are read as a tidy source, from any tidy state. -/
theorem tidy_run : ∀ {tokens : List Token} {state : State}, state.Tidy →
    (∀ token ∈ tokens, token.Tidy) → state.run tokens = some source → source.Tidy
  | [], state, tidy, _, ran => by
    cases state with
    | done source =>
      cases ran
      exact tidy
    | _ => cases ran
  | token :: rest, state, tidy, tokens_tidy, ran => by
    obtain ⟨here, tokens_tidy⟩ := List.forall_mem_cons.1 tokens_tidy
    rw [run] at ran
    obtain ⟨next, stepped, ran⟩ := Option.bind_eq_some_iff.1 ran
    exact tidy_run (tidy_step tidy here stepped) tokens_tidy ran

end State

/-! ### The tokens of a text -/

variable {c : Char} {mode next : Mode} {seen : List Char} {token : Token} {tokens : List Token}

theorem tidy_mark? (made : mark? c = some token) : token.Tidy := by
  unfold mark? at made
  split at made
  all_goals cases made
  all_goals trivial

theorem tidy_numeralToken? (made : numeralToken? seen = some token) : token.Tidy := by
  obtain ⟨n, -, rfl⟩ := Option.map_eq_some_iff.1 made
  intro v number
  obtain ⟨number, -, rfl⟩ := Option.map_eq_some_iff.1 number
  trivial

theorem tidy_wordToken? (made : wordToken? seen = some token) : token.Tidy := by
  unfold wordToken? at made
  split at made
  all_goals cases made
  all_goals
    rintro v ⟨⟩
    trivial

namespace Mode

theorem tidy_start (started : start c = some (tokens, next)) : ∀ token ∈ tokens, token.Tidy := by
  revert started
  fun_cases start c with
  | case1 token marked =>
    rintro ⟨⟩
    exact List.forall_mem_singleton.2 (tidy_mark? marked)
  | case6 => nofun
  | _ =>
    rintro ⟨⟩
    exact List.forall_mem_nil _

theorem tidy_stepText {seen : Option (List Char)}
    (stepped : stepText seen c = some (tokens, next)) : ∀ token ∈ tokens, token.Tidy := by
  revert stepped
  fun_cases stepText seen c with
  | case1 =>
    rintro ⟨⟩
    exact List.forall_mem_singleton.2 trivial
  | case3 => nofun
  | _ =>
    rintro ⟨⟩
    exact List.forall_mem_nil _

theorem tidy_stepEscape {seen : Option (List Char)}
    (stepped : stepEscape seen c = some (tokens, next)) : ∀ token ∈ tokens, token.Tidy := by
  revert stepped
  fun_cases stepEscape seen c with
  | case1 =>
    rintro ⟨⟩
    exact List.forall_mem_nil _
  | case2 =>
    intro stepped
    obtain ⟨e, -, same⟩ := Option.map_eq_some_iff.1 stepped
    cases same
    exact List.forall_mem_nil _

/-- A token that ends where the next character begins another one comes before it. -/
theorem tidy_stepAfter {token : Option Token} (tidy : ∀ t ∈ token, t.Tidy)
    (stepped : stepAfter token c = some (tokens, next)) : ∀ token ∈ tokens, token.Tidy := by
  obtain ⟨t, here, stepped⟩ := Option.bind_eq_some_iff.1 stepped
  obtain ⟨⟨more, mode⟩, started, same⟩ := Option.bind_eq_some_iff.1 stepped
  cases same
  exact List.forall_mem_cons.2 ⟨tidy t here, tidy_start started⟩

theorem tidy_stepCode {seen : Option (List Char)} {high : Option Nat} {owed value : Nat}
    (stepped : stepCode seen high owed value c = some (tokens, next)) :
    ∀ token ∈ tokens, token.Tidy := by
  obtain ⟨digit, -, same⟩ := Option.map_eq_some_iff.1 stepped
  cases same
  exact List.forall_mem_nil _

/-- **One character completes tidy tokens only.** -/
theorem tidy_step (stepped : step c mode = some (tokens, next)) :
    ∀ token ∈ tokens, token.Tidy := by
  revert stepped
  fun_cases step c mode with
  | case1 => exact tidy_start
  | case2 | case6 => exact tidy_stepText
  | case3 | case8 => exact tidy_stepEscape
  | case4 => exact tidy_stepCode
  | case5 | case7 | case9 | case11 =>
    rintro ⟨⟩
    exact List.forall_mem_nil _
  | case10 => exact tidy_stepAfter fun _ => tidy_numeralToken?
  | case12 => exact tidy_stepAfter fun _ => tidy_wordToken?

theorem tidy_finish (finished : mode.finish = some tokens) : ∀ token ∈ tokens, token.Tidy := by
  revert finished
  fun_cases finish mode with
  | case1 =>
    rintro ⟨⟩
    exact List.forall_mem_nil _
  | case2 seen =>
    intro finished
    obtain ⟨token, made, rfl⟩ := Option.map_eq_some_iff.1 finished
    exact List.forall_mem_singleton.2 (tidy_numeralToken? made)
  | case3 seen =>
    intro finished
    obtain ⟨token, made, rfl⟩ := Option.map_eq_some_iff.1 finished
    exact List.forall_mem_singleton.2 (tidy_wordToken? made)
  | case4 => nofun

end Mode

/-- A text is cut into tidy tokens, whatever mode the rest of it is read in. -/
theorem tidy_tokensFrom : ∀ {chars : List Char} {found : List Token} {mode : Mode},
    (∀ token ∈ found, token.Tidy) → tokensFrom found mode chars = some tokens →
      ∀ token ∈ tokens, token.Tidy
  | [], found, mode, tidy, cut => by
    rw [tokensFrom] at cut
    obtain ⟨last, finished, rfl⟩ := Option.map_eq_some_iff.1 cut
    intro token mem
    rcases List.mem_append.1 mem with mem | mem
    · exact tidy token (List.mem_reverse.1 mem)
    · exact Mode.tidy_finish finished token mem
  | c :: rest, found, mode, tidy, cut => by
    rw [tokensFrom] at cut
    obtain ⟨⟨more, next⟩, stepped, cut⟩ := Option.bind_eq_some_iff.1 cut
    refine tidy_tokensFrom (fun token mem => ?_) cut
    rcases List.mem_append.1 mem with mem | mem
    · exact Mode.tidy_step stepped token (List.mem_reverse.1 mem)
    · exact tidy token mem

/-! ### Values -/

variable {text : String} {json : Json}

/-- A text says a tidy source. -/
theorem Source.tidy_of_ofText? {source : Source} (said : Source.ofText? text = some source) :
    source.Tidy := by
  obtain ⟨tokens, cut, ran⟩ := Option.bind_eq_some_iff.1 said
  have start : (State.value []).Tidy := List.forall_mem_nil _
  exact State.tidy_run start (tidy_tokensFrom (List.forall_mem_nil _) cut) ran

/-- **Every value that is read is ordered**, in whatever order its text has the fields. -/
theorem ordered_of_read? (read : read? text = some json) : json.Ordered := by
  obtain ⟨source, said, read⟩ := Option.bind_eq_some_iff.1 read
  exact Source.tidy_of_ofText? said json read

/-- The same holds of a text from outside. -/
theorem ordered_of_ofText? (read : ofText? text = some json) : json.Ordered := by
  obtain ⟨source, said, read⟩ := Option.bind_eq_some_iff.1 read
  split at read
  · exact Source.tidy_of_ofText? said json read
  · cases read

end GraphQuery.Json
