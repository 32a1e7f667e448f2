import GraphQuery.Proofs.Rendering

/-!
# What texts are read as

Splicing changes no token of a well-formed pattern, so the pattern that its text is read as has the
same text. A pattern with a sequence as a step of a sequence has another text, in which every
compound part stands between parentheses, and from which it is read as it is. So exactly the
well-formed patterns are read from some text.

Key definitions: `Pattern.enclosed`, `Pattern.explicitText`, `Pattern.names`.
Key theorems: `Pattern.tokens_splice`, `Pattern.compile_text`, `Pattern.compile_explicitText`,
`Pattern.exists_compile_iff`.
-/

namespace GraphQuery

namespace Pattern

/-! ### Splicing keeps the text -/

theorem separated_cons (m : Mark) (part : List Token) :
    ∀ {parts : List (List Token)}, parts ≠ [] →
      separated m (part :: parts) = part ++ .mark m :: separated m parts
  | _ :: _, _ => rfl

theorem separated_append (m : Mark) {back : List (List Token)} (ne : back ≠ []) :
    ∀ {front : List (List Token)}, front ≠ [] →
      separated m (front ++ back) = separated m front ++ .mark m :: separated m back
  | [part], _ => separated_cons m part ne
  | part :: part₁ :: front, _ => by
    have later := separated_append m ne (List.cons_ne_nil part₁ front)
    rw [List.cons_append, separated_cons m part (by simp), later,
      separated_cons m part (List.cons_ne_nil part₁ front), List.append_assoc, List.cons_append]

theorem tokensAll_eq_map : ∀ ps : List Pattern, tokensAll ps = ps.map tokens
  | [] => rfl
  | p :: ps => by rw [tokensAll, List.map_cons, tokensAll_eq_map ps]

theorem tokensAll_ne_nil {ps : List Pattern} (ne : ps ≠ []) : tokensAll ps ≠ [] := by
  rw [tokensAll_eq_map]
  exact fun none => ne (List.map_eq_nil_iff.1 none)

/-- As steps of a sequence a pattern has its own tokens. -/
theorem separated_steps (p : Pattern) : separated .comma (tokensAll p.steps) = p.tokens := by
  cases p <;> rfl

theorem isCompound_splice (p : Pattern) : p.splice.isCompound = p.isCompound := by
  cases p <;> rfl

theorem grouped_splice {p : Pattern} (h : p.splice.tokens = p.tokens) :
    p.splice.grouped = p.grouped := by
  rw [grouped_eq, grouped_eq, isCompound_splice, h]

mutual

/-- **Splicing changes no token.** -/
theorem tokens_splice : ∀ {p : Pattern}, p.WellFormed → p.splice.tokens = p.tokens
  | .sequence _, h => separated_spliceSteps (ne_nil_of_two_le h.1) h.2
  | .choice _, h => congrArg (separated .bar) (groupedAll_splice h.2)
  | .star inner, h => congrArg (· ++ _) (grouped_splice (tokens_splice (p := inner) h))
  | .plus inner, h => congrArg (· ++ _) (grouped_splice (tokens_splice (p := inner) h))
  | .times inner _ _, h => congrArg (· ++ _) (grouped_splice (tokens_splice (p := inner) h))
  | .forward _, _ | .anyStep, _ | .backward _, _ => rfl

theorem separated_spliceSteps : ∀ {ps : List Pattern}, ps ≠ [] → WellFormedAll ps →
    separated .comma (tokensAll (spliceSteps ps)) = separated .comma (tokensAll ps)
  | [p], _, h => by
    rw [spliceSteps, spliceSteps, List.append_nil, separated_steps, tokens_splice h.1]
    rfl
  | p :: q :: ps, _, h => by
    have some_step : p.splice.steps ≠ [] := List.ne_nil_of_length_pos (length_steps_splice h.1)
    have others : spliceSteps (q :: ps) ≠ [] :=
      List.ne_nil_of_length_pos (Nat.lt_of_lt_of_le (Nat.succ_pos _) (length_spliceSteps h.2))
    have later := separated_spliceSteps (List.cons_ne_nil q ps) h.2
    -- The first step may have become several steps, which have its tokens all together.
    calc separated .comma (tokensAll (spliceSteps (p :: q :: ps)))
        = separated .comma (tokensAll p.splice.steps ++ tokensAll (spliceSteps (q :: ps))) := by
          rw [spliceSteps, tokensAll_eq_map, List.map_append, ← tokensAll_eq_map,
            ← tokensAll_eq_map]
      _ = p.splice.tokens ++ .mark .comma :: separated .comma (tokensAll (spliceSteps (q :: ps))) :=
          by rw [separated_append _ (tokensAll_ne_nil others) (tokensAll_ne_nil some_step),
            separated_steps]
      _ = p.tokens ++ .mark .comma :: separated .comma (tokensAll (q :: ps)) := by
          rw [tokens_splice h.1, later]
      _ = separated .comma (tokensAll (p :: q :: ps)) := rfl

theorem groupedAll_splice : ∀ {ps : List Pattern}, WellFormedAll ps →
    groupedAll (spliceAll ps) = groupedAll ps
  | [], _ => rfl
  | p :: ps, h => by
    rw [spliceAll, groupedAll, groupedAll, grouped_splice (tokens_splice h.1),
      groupedAll_splice h.2]

end

theorem text_splice {p : Pattern} (h : p.WellFormed) : p.splice.text = p.text := by
  rw [text, text, tokens_splice h]

/-- No sequence is left as a step of a sequence. -/
theorem flat_splice {p : Pattern} (h : p.WellFormed) : p.splice.Flat := by
  have read : compile p.splice.text = .ok p.splice := by
    rw [text_splice h]
    exact compile_text_of_wellFormed h
  have wellFormed := wellFormed_of_compile read
  -- The spliced pattern has been read from its own text, so splicing it again changes nothing.
  rw [compile_text_of_wellFormed wellFormed] at read
  exact (splice_eq_self_iff wellFormed).1 (Except.ok.inj read)

/-- **Reading the text of a well-formed pattern splices its sequences and does nothing else**, and
the pattern that is read has the same text. -/
theorem compile_text {p : Pattern} (h : p.WellFormed) :
    compile p.text = .ok p.splice ∧ p.splice.Flat ∧ p.splice.text = p.text :=
  ⟨compile_text_of_wellFormed h, flat_splice h, text_splice h⟩

/-- Nested sequences are spliced inside of a repetition too. -/
theorem compile_text_deep : ∃ p : Pattern,
    p = .sequence [.forward "a", .sequence [.backward "b",
      .times (.sequence [.forward "c", .sequence [.forward "d", .anyStep]]) 1 2]] ∧
    p.WellFormed ∧ p.text = "a,<b,(c,d,.)\x7b1,2\x7d" ∧
    compile p.text = .ok (.sequence [.forward "a", .backward "b",
      .times (.sequence [.forward "c", .forward "d", .anyStep]) 1 2]) ∧
    p.splice.Flat ∧ p.splice.text = p.text := by
  set p : Pattern := .sequence [.forward "a", .sequence [.backward "b",
    .times (.sequence [.forward "c", .sequence [.forward "d", .anyStep]]) 1 2]]
  have wellFormed : p.WellFormed := by
    simp [p, WellFormed, WellFormedAll, IsName, isNameChar, isWord, isAsciiWord]
  have shown : p.text = "a,<b,(c,d,.)\x7b1,2\x7d" := by decide +kernel
  exact ⟨p, rfl, wellFormed, shown, compile_text wellFormed⟩

/-! ### A text for every pattern -/

mutual

/-- The tokens of a pattern with parentheses around every compound part, also where it is a step of
a sequence. -/
def enclosed : Pattern → List Token
  | .forward name => [.name name]
  | .anyStep => [.mark .dot]
  | .backward name => [.mark .less, .name name]
  | .sequence steps => parenthesized (separated .comma (enclosedAll steps))
  | .choice branches => parenthesized (separated .bar (enclosedAll branches))
  | .star inner => enclosed inner ++ [.mark .star]
  | .plus inner => enclosed inner ++ [.mark .plus]
  | .times inner low high => enclosed inner ++ bounds low high

def enclosedAll : List Pattern → List (List Token)
  | [] => []
  | p :: ps => enclosed p :: enclosedAll ps

end

/-- A text that keeps every sequence together. -/
def explicitText (p : Pattern) : String := String.join (p.enclosed.map Token.text)

mutual

theorem spaced_enclosed : ∀ {p : Pattern}, p.WellFormed → Spaced p.enclosed
  | .forward _, h => .name h
  | .anyStep, _ => .mark .dot
  | .backward _, h => (Spaced.name h).cons .less
  | .sequence _, h => (spaced_separated .comma (spaced_enclosedAll h.2)).parenthesized
  | .choice _, h => (spaced_separated .bar (spaced_enclosedAll h.2)).parenthesized
  | .star inner, h => (spaced_enclosed (p := inner) h).concat .star
  | .plus inner, h => (spaced_enclosed (p := inner) h).concat .plus
  | .times inner low high, h => (spaced_enclosed (p := inner) h).append_bounds low high

theorem spaced_enclosedAll : ∀ {ps : List Pattern}, WellFormedAll ps →
    ∀ part ∈ enclosedAll ps, Spaced part
  | [], _ => nofun
  | _ :: _, h => List.forall_mem_cons.2 ⟨spaced_enclosed h.1, spaced_enclosedAll h.2⟩

end

/-- Parts with a mark between them are derived one by one. -/
theorem between_separated {m : Mark} {Part : List Token → Pattern → Prop}
    {parts : List (List Token)} {ps : List Pattern} (each : List.Forall₂ Part parts ps)
    (ne : ps ≠ []) : Between m Part (separated m parts) ps := by
  induction each with
  | nil => contradiction
  | @cons part p parts ps first others ih =>
    cases others with
    | nil => exact .one first
    | cons second others => exact .more first (ih (List.cons_ne_nil _ _))

mutual

/-- Between parentheses every pattern is one phrase, and it is derived as it is. -/
theorem itemsOf_enclosed : ∀ {p : Pattern}, p.WellFormed → ItemsOf p.enclosed none (some p)
  | .forward name, _ => (ItemOf.name name).alone
  | .anyStep, _ => ItemOf.anyStep.alone
  | .backward name, _ => (ItemOf.backward name).alone
  | .sequence steps, h => by
    have each : List.Forall₂ ChoiceOf (enclosedAll steps) steps :=
      (itemsOf_enclosedAll h.2).imp fun _ _ items => .of items.phrase
    have derived := sequenceOf_several h.1 (between_separated each (ne_nil_of_two_le h.1))
    exact (ItemOf.group derived).alone
  | .choice branches, h => by
    have each : List.Forall₂ PhraseOf (enclosedAll branches) branches :=
      (itemsOf_enclosedAll h.2).imp fun _ _ items => .of items
    have derived := choiceOf_several h.1 (between_separated each (ne_nil_of_two_le h.1))
    exact (ItemOf.group (.of (.one derived))).alone
  | .star inner, h => (itemsOf_enclosed (p := inner) h).concat .star
  | .plus inner, h => (itemsOf_enclosed (p := inner) h).concat .plus
  | .times inner low high, h =>
    (itemsOf_enclosed (p := inner) h).concat (.times (count?_toString low) (count?_toString high))

theorem itemsOf_enclosedAll : ∀ {ps : List Pattern}, WellFormedAll ps →
    List.Forall₂ (fun part p => ItemsOf part none (some p)) (enclosedAll ps) ps
  | [], _ => .nil
  | _ :: _, h => .cons (itemsOf_enclosed h.1) (itemsOf_enclosedAll h.2)

end

/-- **A well-formed pattern is read from its explicit text.** -/
theorem compile_explicitText {p : Pattern} (h : p.WellFormed) :
    compile p.explicitText = .ok p := by
  have cut : tokensOf p.explicitText = p.enclosed := (spaced_enclosed h).tokensOf_join
  rw [compile_eq_ok_iff, cut]
  exact .of (itemsOf_enclosed h).choice

example : (sequence [.forward "a", .sequence [.forward "b", .forward "c"]]).explicitText =
    "(a,(b,c))" := by decide +kernel

/-! ### The patterns that are read -/

mutual

/-- The predicate names in a pattern, from left to right. -/
def names : Pattern → List String
  | .forward name => [name]
  | .anyStep => []
  | .backward name => [name]
  | .sequence steps => namesAll steps
  | .choice branches => namesAll branches
  | .star inner => names inner
  | .plus inner => names inner
  | .times inner _ _ => names inner

def namesAll : List Pattern → List String
  | [] => []
  | p :: ps => names p ++ namesAll ps

end

mutual

theorem isName_of_mem_names : ∀ {p : Pattern}, p.WellFormed → ∀ name ∈ p.names, IsName name
  | .forward _, h | .backward _, h => List.forall_mem_singleton.2 h
  | .anyStep, _ => List.forall_mem_nil _
  | .sequence _, h | .choice _, h => isName_of_mem_namesAll h.2
  | .star inner, h | .plus inner, h | .times inner _ _, h => isName_of_mem_names (p := inner) h

theorem isName_of_mem_namesAll : ∀ {ps : List Pattern}, WellFormedAll ps →
    ∀ name ∈ namesAll ps, IsName name
  | [], _ => List.forall_mem_nil _
  | _ :: _, h =>
    List.forall_mem_append.2 ⟨isName_of_mem_names h.1, isName_of_mem_namesAll h.2⟩

end

/-- No mark is a name. -/
theorem IsName.ne_text {name : String} (h : IsName name) (m : Mark) : name ≠ m.text := by
  rintro rfl
  have chars : m.text.toList = [m.char] := String.toList_ofList
  have word := h.2 m.char (by simp [chars])
  rw [isNameChar_mark] at word
  cases word

/-- **Exactly the well-formed patterns are read from texts**, and none of their names is a mark. -/
theorem exists_compile_iff (p : Pattern) : (∃ text, compile text = .ok p) ↔
    p.WellFormed ∧ ∀ name ∈ p.names, ∀ m : Mark, name ≠ m.text := by
  constructor
  · rintro ⟨text, read⟩
    have wellFormed := wellFormed_of_compile read
    exact ⟨wellFormed, fun name mem => (isName_of_mem_names wellFormed name mem).ne_text⟩
  · rintro ⟨wellFormed, -⟩
    exact ⟨p.explicitText, compile_explicitText wellFormed⟩

end Pattern

end GraphQuery
