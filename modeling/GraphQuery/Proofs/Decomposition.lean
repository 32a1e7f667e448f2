import Mathlib.Data.List.Infix
import GraphQuery.Proofs.PathGrammar

/-!
# Splitting is the decomposition at level separators

Brackets of each kind are counted. Tokens are level when they close each kind as often as they open
it, and overclosed when some prefix closes a kind more often than it opens it. Overclosed tokens are
the ones that are not split. All others have exactly one list of parts that gives them back with the
separator between the parts, such that no separator of a part stands after level tokens and every
part but the last one is level; it is what splitting finds, also where brackets stay open.

Key definitions: `Level`, `Overclosed`, `Decomposes`.
Key theorems: `Depth.after_counts`, `overclosed_iff`, `unsplit_outside_iff`,
`splitTokens_eq_some_iff`, `partsOf_decomposes`.
-/

namespace GraphQuery

/-- Tokens that close each kind of bracket as often as they open it. -/
structure Level (tokens : List Token) : Prop where
  parens : tokens.count (.mark .openParen) = tokens.count (.mark .closeParen)
  braces : tokens.count (.mark .openBrace) = tokens.count (.mark .closeBrace)

/-- Tokens with a prefix that closes a kind of bracket more often than it opens it. -/
def Overclosed (tokens : List Token) : Prop :=
  ∃ front, front <+: tokens ∧
    (front.count (.mark .openParen) < front.count (.mark .closeParen) ∨
      front.count (.mark .openBrace) < front.count (.mark .closeBrace))

/-- Parts of tokens between the separators that stand after level tokens. -/
structure Decomposes (separator : Token) (tokens : List Token) (parts : List (List Token)) :
    Prop where
  ne_nil : parts ≠ []
  joined : [separator].intercalate parts = tokens
  unsplit : ∀ part ∈ parts, ∀ front back, part = front ++ separator :: back → ¬Level front
  level : ∀ part ∈ parts.dropLast, Level part

variable {separator token : Token} {tokens part : List Token} {parts : List (List Token)}

/-! ### Depth by counting -/

theorem count_cons (token : Token) (tokens : List Token) (counted : Token) :
    (token :: tokens).count counted = [token].count counted + tokens.count counted := by
  rw [← List.singleton_append, List.count_append]

namespace Depth

variable {depth next last : Depth}

/-- What one token does to the depth. -/
theorem step_counts (h : depth.step token = some next) :
    next.parens + [token].count (.mark .closeParen) =
        depth.parens + [token].count (.mark .openParen) ∧
      next.braces + [token].count (.mark .closeBrace) =
        depth.braces + [token].count (.mark .openBrace) := by
  cases token with
  | name text =>
    cases h
    simp
  | mark m =>
    cases m with
    | closeParen =>
      obtain ⟨some_open, rfl⟩ : depth.parens ≠ 0 ∧
          { depth with parens := depth.parens - 1 } = next := by
        simpa [step] using h
      simp
      omega
    | closeBrace =>
      obtain ⟨some_open, rfl⟩ : depth.braces ≠ 0 ∧
          { depth with braces := depth.braces - 1 } = next := by
        simpa [step] using h
      simp
      omega
    | _ =>
      cases h
      simp

/-- The tokens after which there is no depth. -/
theorem step_eq_none_iff : depth.step token = none ↔
    token = .mark .closeParen ∧ depth.parens = 0 ∨
      token = .mark .closeBrace ∧ depth.braces = 0 := by
  cases token with
  | name text => simp [step]
  | mark m => cases m <;> simp [step]

theorem after_cons (h : depth.step token = some next) (rest : List Token) :
    depth.after (token :: rest) = next.after rest := by
  rw [after, h, Option.bind_some]

theorem after_append (back : List Token) : ∀ (depth : Depth) (front : List Token),
    depth.after (front ++ back) = (depth.after front).bind fun next => next.after back
  | _, [] => rfl
  | depth, token :: front => by
    rw [List.cons_append, after, after, Option.bind_assoc]
    exact congrArg _ (funext fun next => after_append back next front)

/-- **The depth counts the brackets.** -/
theorem after_counts : ∀ {tokens : List Token} {depth : Depth}, depth.after tokens = some last →
    last.parens + tokens.count (.mark .closeParen) =
        depth.parens + tokens.count (.mark .openParen) ∧
      last.braces + tokens.count (.mark .closeBrace) =
        depth.braces + tokens.count (.mark .openBrace)
  | [], depth, h => by
    obtain rfl := Option.some.inj h
    simp
  | token :: rest, depth, h => by
    obtain ⟨next, step, later⟩ := Option.bind_eq_some_iff.1 h
    have first := step_counts step
    have others := after_counts later
    simp only [count_cons token rest]
    omega

/-- There is no depth after tokens exactly if some prefix of them closes too much. -/
theorem after_eq_none_iff : depth.after tokens = none ↔ ∃ front, front <+: tokens ∧
    (depth.parens + front.count (.mark .openParen) < front.count (.mark .closeParen) ∨
      depth.braces + front.count (.mark .openBrace) < front.count (.mark .closeBrace)) := by
  constructor
  · intro h
    induction tokens generalizing depth with
    | nil => cases h
    | cons token rest ih =>
      cases step : depth.step token with
      | none =>
        refine ⟨[token], by simp, ?_⟩
        rcases step_eq_none_iff.1 step with ⟨rfl, zero⟩ | ⟨rfl, zero⟩
        · simp [zero]
        · simp [zero]
      | some next =>
        rw [after_cons step] at h
        obtain ⟨front, begins, excess⟩ := ih h
        refine ⟨token :: front, List.cons_prefix_cons.2 ⟨rfl, begins⟩, ?_⟩
        have first := step_counts step
        simp only [count_cons token front]
        omega
  · rintro ⟨front, ⟨back, rfl⟩, excess⟩
    rw [after_append]
    cases h : depth.after front with
    | none => rfl
    | some next =>
      have counts := after_counts h
      omega

end Depth

/-- Tokens are overclosed exactly if they leave no depth. -/
theorem overclosed_iff : Overclosed tokens ↔ Depth.outside.after tokens = none := by
  rw [Depth.after_eq_none_iff]
  simp [Overclosed, Depth.outside]

theorem not_overclosed_iff :
    ¬Overclosed tokens ↔ ∃ last, Depth.outside.after tokens = some last := by
  rw [overclosed_iff, ← ne_eq, Option.ne_none_iff_exists']

/-- Tokens are level exactly if the depth after them is outside of all brackets. -/
theorem level_iff {last : Depth} (h : Depth.outside.after tokens = some last) :
    Level tokens ↔ last = .outside := by
  obtain ⟨parens, braces⟩ := Depth.after_counts h
  have zero : Depth.outside.parens = 0 ∧ Depth.outside.braces = 0 := ⟨rfl, rfl⟩
  constructor
  · intro level
    obtain ⟨same, same₁⟩ := level
    have no_parens : last.parens = 0 := by omega
    have no_braces : last.braces = 0 := by omega
    cases last
    subst no_parens no_braces
    rfl
  · rintro rfl
    constructor <;> omega

/-! ### Splitting by counting -/

/-- Splitting fails exactly if there is no depth after the tokens. -/
theorem splitFrom_eq_none_iff (plain : separator.isBracket = false) {depth : Depth} :
    splitFrom separator depth tokens = none ↔ depth.after tokens = none := by
  induction tokens generalizing depth with
  | nil => simp [splitFrom, Depth.after]
  | cons token rest ih =>
    by_cases here : depth = .outside ∧ token = separator
    · obtain ⟨rfl, rfl⟩ := here
      rw [splitFrom, if_pos ⟨rfl, rfl⟩, Option.map_eq_none_iff, ih,
        Depth.after_cons (Depth.step_of_isBracket plain _)]
    · cases step : depth.step token with
      | none => simp [splitFrom, here, Depth.after, step]
      | some next =>
        rw [splitFrom_cons_of_step here step, Option.map_eq_none_iff, ih, Depth.after_cons step]

/-- A single part has a depth after it and no separator outside of brackets. -/
theorem unsplit_iff {depth : Depth} : Unsplit separator depth tokens ↔
    (∃ last, depth.after tokens = some last) ∧
      ∀ front back, tokens = front ++ separator :: back → depth.after front ≠ some .outside := by
  induction tokens generalizing depth with
  | nil => simp [unsplit_nil, Depth.after]
  | cons token rest ih =>
    rw [unsplit_cons_iff]
    constructor
    · rintro ⟨differs, next, step, whole⟩
      obtain ⟨ends, inside⟩ := ih.1 whole
      refine ⟨by rwa [Depth.after_cons step], fun front back same => ?_⟩
      cases front with
      | nil =>
        obtain ⟨rfl, -⟩ := List.cons.inj same
        intro outside
        exact differs ⟨Option.some.inj outside, rfl⟩
      | cons _ front =>
        obtain ⟨rfl, same_rest⟩ := List.cons.inj same
        rw [Depth.after_cons step]
        exact inside front back same_rest
    · rintro ⟨⟨last, ends⟩, inside⟩
      obtain ⟨next, step, later⟩ := Option.bind_eq_some_iff.1 ends
      refine ⟨?_, next, step, ih.2 ⟨⟨last, later⟩, fun front back same => ?_⟩⟩
      · rintro ⟨rfl, rfl⟩
        exact inside [] rest rfl rfl
      · rw [← Depth.after_cons step]
        exact inside (token :: front) back (congrArg _ same)

/-- A single part is not overclosed and has no separator after level tokens. -/
theorem unsplit_outside_iff : Unsplit separator .outside tokens ↔
    ¬Overclosed tokens ∧ ∀ front back, tokens = front ++ separator :: back → ¬Level front := by
  rw [unsplit_iff, not_overclosed_iff]
  refine and_congr_right fun ⟨last, ends⟩ => ?_
  refine forall_congr' fun front => forall_congr' fun back => forall_congr' fun same => ?_
  rw [same, Depth.after_append] at ends
  obtain ⟨next, begins, -⟩ := Option.bind_eq_some_iff.1 ends
  rw [begins, level_iff begins, ne_eq, Option.some.injEq]

/-- Every part but the last one ends outside of all brackets. -/
theorem after_of_splitFrom {depth : Depth}
    (found : splitFrom separator depth tokens = some (part :: parts)) :
    (parts ≠ [] → depth.after part = some .outside) ∧
      ∀ part ∈ parts.dropLast, Depth.outside.after part = some .outside := by
  induction tokens generalizing depth part parts with
  | nil =>
    cases found
    simp
  | cons token tokens ih =>
    rcases splitFrom_cons_cases found with
      ⟨rfl, rfl, rfl, ne, later⟩ | ⟨here, next, first, step, rfl, later⟩
    · refine ⟨fun _ => rfl, ?_⟩
      cases parts with
      | nil => contradiction
      | cons first others =>
        obtain ⟨ends, all⟩ := ih later
        cases others with
        | nil => simp
        | cons second others => exact List.forall_mem_cons.2 ⟨ends (List.cons_ne_nil _ _), all⟩
    · rw [Depth.after_cons step]
      exact ih later

/-- The parts that splitting finds are a decomposition. -/
theorem Decomposes.of_splitTokens (plain : separator.isBracket = false)
    (found : splitTokens separator tokens = some parts) : Decomposes separator tokens parts where
  ne_nil := splitFrom_ne_nil found
  joined := intercalate_splitFrom found
  unsplit part mem :=
    (unsplit_outside_iff.1 (unsplit_of_mem_splitTokens plain (.inl rfl) found part mem)).2
  level part mem := by
    cases parts with
    | nil => cases mem
    | cons first others =>
      obtain ⟨ends, all⟩ := after_of_splitFrom found
      cases others with
      | nil => cases mem
      | cons second others =>
        rcases List.mem_cons.1 mem with rfl | mem
        · exact (level_iff (ends (List.cons_ne_nil _ _))).2 rfl
        · exact (level_iff (all part mem)).2 rfl

/-- A single part is passed over as a whole, whatever depth it leads to. -/
theorem Unsplit.splitFrom_append {depth last : Depth} (whole : Unsplit separator depth part)
    (ends : depth.after part = some last) (rest : List Token) :
    splitFrom separator depth (part ++ rest) =
      (splitFrom separator last rest).map (prepend part) := by
  induction part generalizing depth with
  | nil =>
    obtain rfl := Option.some.inj ends
    exact seamless_nil rest
  | cons token part ih =>
    obtain ⟨here, next, step, whole⟩ := unsplit_cons_iff.1 whole
    rw [Depth.after_cons step] at ends
    rw [List.cons_append, splitFrom_cons_of_step here step, ih whole ends, Option.map_map]
    rfl

theorem Overclosed.append {front : List Token} (h : Overclosed front) (back : List Token) :
    Overclosed (front ++ back) := by
  obtain ⟨start, begins, excess⟩ := h
  exact ⟨start, begins.trans (List.prefix_append _ _), excess⟩

/-- Splitting finds every decomposition. -/
theorem Decomposes.splitTokens_eq (plain : separator.isBracket = false)
    (closed : ¬Overclosed tokens) (h : Decomposes separator tokens parts) :
    splitTokens separator tokens = some parts := by
  obtain ⟨ne, rfl, unsplit, level⟩ := h
  induction parts with
  | nil => contradiction
  | cons part others ih =>
    obtain ⟨free, frees⟩ := List.forall_mem_cons.1 unsplit
    cases others with
    | nil =>
      have single : [separator].intercalate [part] = part := by simp
      rw [single] at closed ⊢
      exact unsplit_outside_iff.2 ⟨closed, free⟩
    | cons second others =>
      obtain ⟨even, evens⟩ := List.forall_mem_cons.1 level
      have joined : [separator].intercalate (part :: second :: others) =
          part ++ separator :: [separator].intercalate (second :: others) := by
        simp [List.intercalate]
      rw [joined] at closed ⊢
      have part_closed : ¬Overclosed part := fun excess => closed (excess.append _)
      have whole : Unsplit separator .outside part := unsplit_outside_iff.2 ⟨part_closed, free⟩
      obtain ⟨last, ends⟩ := not_overclosed_iff.1 part_closed
      obtain rfl := (level_iff ends).1 even
      -- The part is level, so what stands after the separator is counted from the start again.
      have rest_closed : ¬Overclosed ([separator].intercalate (second :: others)) := by
        rw [overclosed_iff, Depth.after_append, ends, Option.bind_some,
          Depth.after_cons (Depth.step_of_isBracket plain _), ← overclosed_iff] at closed
        exact closed
      have later := ih (List.cons_ne_nil _ _) frees evens rest_closed
      rw [splitTokens] at later
      rw [splitTokens, whole.splitFrom_append ends, splitFrom, if_pos ⟨rfl, rfl⟩, later]
      rw [Option.map_some, Option.map_some, prepend_part, List.append_nil]

/-- **Splitting finds exactly the decompositions of tokens that are not overclosed.** -/
theorem splitTokens_eq_some_iff (plain : separator.isBracket = false) :
    splitTokens separator tokens = some parts ↔
      ¬Overclosed tokens ∧ Decomposes separator tokens parts := by
  constructor
  · intro found
    refine ⟨fun excess => ?_, .of_splitTokens plain found⟩
    rw [overclosed_iff, ← splitFrom_eq_none_iff plain, ← splitTokens, found] at excess
    cases excess
  · rintro ⟨closed, decomposes⟩
    exact decomposes.splitTokens_eq plain closed

/-- Tokens have no parts exactly if they are overclosed, which is what is wrong with them then. -/
theorem partsOf_eq_error_iff (plain : separator.isBracket = false) {e : PathError} :
    partsOf separator tokens = .error e ↔
      Overclosed tokens ∧ e = .ofTokens tokens .unbalanced := by
  rw [overclosed_iff, ← splitFrom_eq_none_iff plain, ← splitTokens, partsOf]
  cases splitTokens separator tokens <;> simp [eq_comm]

/-- **Splitting computes the one decomposition at level separators**, and fails exactly if some
prefix of the tokens closes more brackets of a kind than it opens. -/
theorem partsOf_decomposes (plain : separator.isBracket = false) (tokens : List Token) :
    ((∃ e, partsOf separator tokens = .error e) ↔ Overclosed tokens) ∧
    ∀ parts, partsOf separator tokens = .ok parts →
      Decomposes separator tokens parts ∧
        ∀ others, Decomposes separator tokens others → others = parts := by
  refine ⟨?_, fun parts found => ?_⟩
  · simp only [partsOf_eq_error_iff plain, exists_and_left, exists_eq, and_true]
  · have found := partsOf_eq_ok_iff.1 found
    obtain ⟨closed, decomposes⟩ := (splitTokens_eq_some_iff plain).1 found
    refine ⟨decomposes, fun others h => ?_⟩
    have found₁ := h.splitTokens_eq plain closed
    exact Option.some.inj (found₁.symm.trans found)

/-- Bounds keep their comma, and so does a group that is never closed. -/
theorem partsOf_decomposes_unclosed : ∃ bounded unclosed tokens : List Token,
    bounded = [.name "a", .mark .openBrace, .name "1", .mark .comma, .name "2",
      .mark .closeBrace] ∧
    unclosed = [.mark .openParen, .name "b", .mark .comma, .name "c"] ∧
    tokens = bounded ++ .mark .comma :: unclosed ∧
    Token.isBracket (.mark .comma) = false ∧
    partsOf (.mark .comma) tokens = .ok [bounded, unclosed] ∧ ¬Overclosed tokens ∧
    Decomposes (.mark .comma) tokens [bounded, unclosed] ∧
    ∀ others, Decomposes (.mark .comma) tokens others → others = [bounded, unclosed] := by
  set bounded : List Token := [.name "a", .mark .openBrace, .name "1", .mark .comma, .name "2",
    .mark .closeBrace]
  set unclosed : List Token := [.mark .openParen, .name "b", .mark .comma, .name "c"]
  have plain : Token.isBracket (.mark .comma) = false := rfl
  have found : partsOf (.mark .comma) (bounded ++ .mark .comma :: unclosed) =
      .ok [bounded, unclosed] := by rfl
  obtain ⟨fails, unique⟩ := partsOf_decomposes plain (bounded ++ .mark .comma :: unclosed)
  obtain ⟨decomposes, only⟩ := unique _ found
  have closed : ¬Overclosed (bounded ++ .mark .comma :: unclosed) := by
    intro excess
    obtain ⟨e, failed⟩ := fails.2 excess
    rw [found] at failed
    cases failed
  exact ⟨bounded, unclosed, _, rfl, rfl, rfl, plain, found, closed, decomposes, only⟩

end GraphQuery
