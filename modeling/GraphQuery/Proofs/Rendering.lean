import GraphQuery.Proofs.PathGrammar
import GraphQuery.Proofs.TokenText

/-!
# The text of a pattern reads back

The text of a well-formed pattern is cut into the tokens of the pattern, and the grammar derives
from them the pattern with nested sequences spliced: a step that is a sequence itself is written
without parentheses, so its steps become steps of the sequence around it. Every other part is
written so that it comes back as it is. So a pattern reads back from its text exactly when no step
of a sequence is a sequence.

Key definitions: `Pattern.Flat`.
Key theorems: `SequenceOf.wellFormed`, `Pattern.tokensOf_text`, `Pattern.sequenceOf_tokens`,
`Pattern.splice_eq_self_iff`, `Pattern.compile_text_eq_self_iff`.
-/

namespace GraphQuery

open Pattern

/-! ### What is read is well-formed -/

theorem Pattern.wellFormed_ofSequence {ps : List Pattern} (ne : ps ≠ []) (h : WellFormedAll ps) :
    (ofSequence ps).WellFormed := by
  match ps with
  | [] => exact absurd rfl ne
  | [p] => exact h.1
  | p :: q :: ps => exact ⟨by simp, h⟩

theorem Pattern.wellFormed_ofChoice {ps : List Pattern} (ne : ps ≠ []) (h : WellFormedAll ps) :
    (ofChoice ps).WellFormed := by
  match ps with
  | [] => exact absurd rfl ne
  | [p] => exact h.1
  | p :: q :: ps => exact ⟨by simp, h⟩

theorem Between.ne_nil {m : Mark} {Part : List Token → Pattern → Prop} {tokens : List Token}
    {ps : List Pattern} (h : Between m Part tokens ps) : ps ≠ [] := by
  cases h <;> simp

mutual

theorem ItemOf.wellFormed : ∀ {tokens : List Token} {read next : Option Pattern},
    ItemOf tokens read next → (∀ token ∈ tokens, token.Readable) →
      (∀ p ∈ read, p.WellFormed) → ∀ p ∈ next, p.WellFormed
  | _, _, _, .name text, names, _, _, same => by
    cases same
    exact names (.name text) (by simp)
  | _, _, _, .anyStep, _, _, _, same => by
    cases same
    trivial
  | _, _, _, .backward text, names, _, _, same => by
    cases same
    exact names (.name text) (by simp)
  | _, _, _, .group h, names, _, _, same => by
    cases same
    exact h.wellFormed fun token mem => names token (by simp [parenthesized, mem])
  | _, _, _, .greater, _, read, p, same => read p same
  | _, _, _, .star, _, read, _, same => by
    cases same
    have inner := read _ rfl
    exact inner
  | _, _, _, .plus, _, read, _, same => by
    cases same
    have inner := read _ rfl
    exact inner
  | _, _, _, .times _ _, _, read, _, same => by
    cases same
    have inner := read _ rfl
    exact inner

theorem ItemsOf.wellFormed : ∀ {tokens : List Token} {read last : Option Pattern},
    ItemsOf tokens read last → (∀ token ∈ tokens, token.Readable) →
      (∀ p ∈ read, p.WellFormed) → ∀ p ∈ last, p.WellFormed
  | _, _, _, .nil, _, read => read
  | _, _, _, .cons first others, names, read =>
    have ⟨front, back⟩ := List.forall_mem_append.1 names
    others.wellFormed back (first.wellFormed front read)

theorem PhraseOf.wellFormed : ∀ {tokens : List Token} {p : Pattern},
    PhraseOf tokens p → (∀ token ∈ tokens, token.Readable) → p.WellFormed
  | _, _, .of h, names => h.wellFormed names nofun _ rfl

theorem wellFormedAll_of_phrases : ∀ {tokens : List Token} {ps : List Pattern},
    Between .bar PhraseOf tokens ps → (∀ token ∈ tokens, token.Readable) → WellFormedAll ps
  | _, _, .one h, names => ⟨h.wellFormed names, trivial⟩
  | _, _, .more h hs, names =>
    have ⟨front, back⟩ := List.forall_mem_append.1 names
    ⟨h.wellFormed front, wellFormedAll_of_phrases hs (List.forall_mem_cons.1 back).2⟩

theorem ChoiceOf.wellFormed : ∀ {tokens : List Token} {p : Pattern},
    ChoiceOf tokens p → (∀ token ∈ tokens, token.Readable) → p.WellFormed
  | _, _, .of h, names => wellFormed_ofChoice h.ne_nil (wellFormedAll_of_phrases h names)

theorem wellFormedAll_of_choices : ∀ {tokens : List Token} {ps : List Pattern},
    Between .comma ChoiceOf tokens ps → (∀ token ∈ tokens, token.Readable) → WellFormedAll ps
  | _, _, .one h, names => ⟨h.wellFormed names, trivial⟩
  | _, _, .more h hs, names =>
    have ⟨front, back⟩ := List.forall_mem_append.1 names
    ⟨h.wellFormed front, wellFormedAll_of_choices hs (List.forall_mem_cons.1 back).2⟩

/-- What the grammar derives from names is well-formed. -/
theorem SequenceOf.wellFormed : ∀ {tokens : List Token} {p : Pattern},
    SequenceOf tokens p → (∀ token ∈ tokens, token.Readable) → p.WellFormed
  | _, _, .of h, names => wellFormed_ofSequence h.ne_nil (wellFormedAll_of_choices h names)

end

/-! ### Tokens of a pattern -/

/-- The digits of a number are a name. -/
theorem Pattern.isName_toString (n : Nat) : IsName (toString n) := by
  have digits : (toString n).toList = Nat.toDigits 10 n := by
    rw [Nat.toString_eq_repr, Nat.toList_repr]
  refine ⟨?_, fun c mem => ?_⟩
  · rw [digits]
    exact Nat.toDigits_ne_nil
  · rw [digits] at mem
    have digit := Nat.isDigit_of_mem_toDigits (by decide) (by decide) mem
    have word : isWord c = true := isWord_of_isAlphanum (by simp [Char.isAlphanum, digit])
    simp [isNameChar, word]

/-- A count reads back from its digits. -/
theorem count?_toString (n : UInt64) : (Token.name (toString n.toNat)).count? = some n := by
  have digits : (toString n.toNat).toList = Nat.toDigits 10 n.toNat := by
    rw [Nat.toString_eq_repr, Nat.toList_repr]
  have all : ∀ c ∈ Nat.toDigits 10 n.toNat, c.isDigit = true :=
    fun c mem => Nat.isDigit_of_mem_toDigits (by decide) (by decide) mem
  have ne : Nat.toDigits 10 n.toNat ≠ [] := Nat.toDigits_ne_nil
  have plain : ((Nat.toDigits 10 n.toNat).isEmpty ||
      !(Nat.toDigits 10 n.toNat).all Char.isDigit) = false := by
    simp [ne, List.all_eq_true.2 all]
  have value : (Nat.toDigits 10 n.toNat).foldl
      (fun value c => value * 10 + (c.toNat - '0'.toNat)) 0 = n.toNat := by
    have read : Nat.ofDigitChars 10 (Nat.toDigits 10 n.toNat) 0 = n.toNat :=
      Nat.ofDigitChars_toDigits (by decide) (by decide)
    simpa only [Nat.ofDigitChars_eq_foldl, Nat.mul_comm 10] using read
  show readCount? (toString n.toNat) = some n
  unfold readCount?
  extract_lets unsigned number
  have same : unsigned = Nat.toDigits 10 n.toNat := by
    simp only [unsigned, digits]
    split
    · next rest same =>
      have plus := all '+' (by rw [same]; simp)
      exact absurd plus (by decide)
    · rfl
  have read : number = n.toNat := by rw [← value, ← same]
  have small : n.toNat < UInt64.size := n.toNat_lt
  simp only [same, plain, read, small, Bool.false_eq_true, if_true, if_false, UInt64.ofNat_toNat]

theorem Spaced.parenthesized {tokens : List Token} (h : Spaced tokens) :
    Spaced (parenthesized tokens) :=
  (h.cons .openParen).concat .closeParen

/-- The tokens before bounds stay apart from them. -/
theorem Spaced.append_bounds {tokens : List Token} (h : Spaced tokens) (low high : UInt64) :
    Spaced (tokens ++ bounds low high) := by
  have inner : Spaced [.name (toString low.toNat), .mark .comma, .name (toString high.toNat)] :=
    .between .comma (.name (isName_toString _)) (.name (isName_toString _))
  exact h.between .openBrace (inner.concat .closeBrace)

theorem spaced_separated (m : Mark) : ∀ {parts : List (List Token)},
    (∀ part ∈ parts, Spaced part) → Spaced (separated m parts)
  | [], _ => .nil
  | [part], h => h part (List.mem_singleton_self part)
  | _ :: _ :: _, h =>
    have ⟨first, others⟩ := List.forall_mem_cons.1 h
    first.between m (spaced_separated m others)

namespace Pattern

mutual

theorem spaced_grouped : ∀ {p : Pattern}, p.WellFormed → Spaced p.grouped
  | .forward _, h => .name h
  | .anyStep, _ => .mark .dot
  | .backward _, h => (Spaced.name h).cons .less
  | .sequence _, h => (spaced_separated .comma (spaced_tokensAll h.2)).parenthesized
  | .choice _, h => (spaced_separated .bar (spaced_groupedAll h.2)).parenthesized
  | .star inner, h => (spaced_grouped (p := inner) h).concat .star
  | .plus inner, h => (spaced_grouped (p := inner) h).concat .plus
  | .times inner low high, h => (spaced_grouped (p := inner) h).append_bounds low high

/-- No two names are neighbours in the tokens of a well-formed pattern. -/
theorem spaced_tokens : ∀ {p : Pattern}, p.WellFormed → Spaced p.tokens
  | .forward _, h => .name h
  | .anyStep, _ => .mark .dot
  | .backward _, h => (Spaced.name h).cons .less
  | .sequence _, h => spaced_separated .comma (spaced_tokensAll h.2)
  | .choice _, h => spaced_separated .bar (spaced_groupedAll h.2)
  | .star inner, h => (spaced_grouped (p := inner) h).concat .star
  | .plus inner, h => (spaced_grouped (p := inner) h).concat .plus
  | .times inner low high, h => (spaced_grouped (p := inner) h).append_bounds low high

theorem spaced_tokensAll : ∀ {ps : List Pattern}, WellFormedAll ps →
    ∀ part ∈ tokensAll ps, Spaced part
  | [], _ => nofun
  | _ :: _, h => List.forall_mem_cons.2 ⟨spaced_tokens h.1, spaced_tokensAll h.2⟩

theorem spaced_groupedAll : ∀ {ps : List Pattern}, WellFormedAll ps →
    ∀ part ∈ groupedAll ps, Spaced part
  | [], _ => nofun
  | _ :: _, h => List.forall_mem_cons.2 ⟨spaced_grouped h.1, spaced_groupedAll h.2⟩

end

/-- **The text of a well-formed pattern is cut into the tokens of the pattern.** -/
theorem tokensOf_text {p : Pattern} (h : p.WellFormed) : tokensOf p.text = p.tokens :=
  (spaced_tokens h).tokensOf_join

end Pattern

/-! ### The pattern derived -/

theorem Between.append {m : Mark} {Part : List Token → Pattern → Prop} {front back : List Token}
    {ps qs : List Pattern} (h : Between m Part front ps) (h₁ : Between m Part back qs) :
    Between m Part (front ++ .mark m :: back) (ps ++ qs) := by
  induction h with
  | one part => exact .more part h₁
  | @more tokens rest p ps part _ ih =>
    rw [List.append_assoc, List.cons_append, List.cons_append]
    exact .more part ih

theorem ItemOf.alone {tokens : List Token} {read next : Option Pattern}
    (h : ItemOf tokens read next) : ItemsOf tokens read next := by
  have items := ItemsOf.cons h .nil
  rwa [List.append_nil] at items

theorem ItemsOf.concat {front item : List Token} {read next last : Option Pattern}
    (h : ItemsOf front read next) (h₁ : ItemOf item next last) :
    ItemsOf (front ++ item) read last := by
  match h with
  | .nil => exact h₁.alone
  | .cons first others =>
    rw [List.append_assoc]
    exact .cons first (others.concat h₁)

theorem ItemsOf.phrase {tokens : List Token} {p : Pattern} (h : ItemsOf tokens none (some p)) :
    Between .bar PhraseOf tokens [p] := .one (.of h)

theorem ItemsOf.choice {tokens : List Token} {p : Pattern} (h : ItemsOf tokens none (some p)) :
    Between .comma ChoiceOf tokens [p] := .one (.of h.phrase)

namespace Pattern

theorem ofSequence_of_two_le {ps : List Pattern} (two : 2 ≤ ps.length) :
    ofSequence ps = .sequence ps := by
  match ps with
  | _ :: _ :: _ => rfl

theorem ofChoice_of_two_le {ps : List Pattern} (two : 2 ≤ ps.length) :
    ofChoice ps = .choice ps := by
  match ps with
  | _ :: _ :: _ => rfl

theorem ne_nil_of_two_le {ps : List Pattern} (two : 2 ≤ ps.length) : ps ≠ [] := by
  rintro rfl
  cases two

theorem length_spliceAll : ∀ ps : List Pattern, (spliceAll ps).length = ps.length
  | [] => rfl
  | p :: ps => by rw [spliceAll, List.length_cons, List.length_cons, length_spliceAll ps]

mutual

theorem length_steps_splice : ∀ {p : Pattern}, p.WellFormed → 1 ≤ p.splice.steps.length
  | .sequence steps, h => by
    have long := length_spliceSteps h.2
    have two := h.1
    show 1 ≤ (spliceSteps steps).length
    omega
  | .forward _, _ | .anyStep, _ | .backward _, _ | .choice _, _ | .star _, _ | .plus _, _
  | .times _ _ _, _ => Nat.le_refl 1

/-- Splicing makes no list of steps shorter. -/
theorem length_spliceSteps : ∀ {ps : List Pattern}, WellFormedAll ps →
    ps.length ≤ (spliceSteps ps).length
  | [], _ => Nat.le_refl 0
  | p :: ps, h => by
    have first := length_steps_splice h.1
    have others := length_spliceSteps h.2
    rw [spliceSteps, List.length_append, List.length_cons]
    omega

end

/-- Two or more alternations are a sequence. -/
theorem sequenceOf_several {tokens : List Token} {ps : List Pattern} (two : 2 ≤ ps.length)
    (h : Between .comma ChoiceOf tokens ps) : SequenceOf tokens (.sequence ps) := by
  have derived := SequenceOf.of h
  rwa [ofSequence_of_two_le two] at derived

/-- Two or more phrases are an alternation. -/
theorem choiceOf_several {tokens : List Token} {ps : List Pattern} (two : 2 ≤ ps.length)
    (h : Between .bar PhraseOf tokens ps) : ChoiceOf tokens (.choice ps) := by
  have derived := ChoiceOf.of h
  rwa [ofChoice_of_two_le two] at derived

mutual

/-- Between parentheses a pattern is one phrase. -/
theorem itemsOf_grouped : ∀ {p : Pattern}, p.WellFormed →
    ItemsOf p.grouped none (some p.splice)
  | .forward name, _ => (ItemOf.name name).alone
  | .anyStep, _ => ItemOf.anyStep.alone
  | .backward name, _ => (ItemOf.backward name).alone
  | .sequence steps, h => by
    have two : 2 ≤ (spliceSteps steps).length := Nat.le_trans h.1 (length_spliceSteps h.2)
    have steps := choices_separated (ne_nil_of_two_le h.1) h.2
    exact (ItemOf.group (sequenceOf_several two steps)).alone
  | .choice branches, h => by
    have two : 2 ≤ (spliceAll branches).length := by rw [length_spliceAll]; exact h.1
    have branches := phrases_separated (ne_nil_of_two_le h.1) h.2
    exact (ItemOf.group (.of (.one (choiceOf_several two branches)))).alone
  | .star inner, h => (itemsOf_grouped (p := inner) h).concat .star
  | .plus inner, h => (itemsOf_grouped (p := inner) h).concat .plus
  | .times inner low high, h =>
    (itemsOf_grouped (p := inner) h).concat (.times (count?_toString low) (count?_toString high))

/-- As a step of a sequence a pattern is its steps. -/
theorem choices_tokens : ∀ {p : Pattern}, p.WellFormed →
    Between .comma ChoiceOf p.tokens p.splice.steps
  | .forward name, _ => (ItemOf.name name).alone.choice
  | .anyStep, _ => ItemOf.anyStep.alone.choice
  | .backward name, _ => (ItemOf.backward name).alone.choice
  | .sequence _, h => choices_separated (ne_nil_of_two_le h.1) h.2
  | .choice branches, h => by
    have two : 2 ≤ (spliceAll branches).length := by rw [length_spliceAll]; exact h.1
    have branches := phrases_separated (ne_nil_of_two_le h.1) h.2
    exact .one (choiceOf_several two branches)
  | .star inner, h => ((itemsOf_grouped (p := inner) h).concat .star).choice
  | .plus inner, h => ((itemsOf_grouped (p := inner) h).concat .plus).choice
  | .times inner low high, h =>
    ((itemsOf_grouped (p := inner) h).concat
      (.times (count?_toString low) (count?_toString high))).choice

theorem choices_separated : ∀ {ps : List Pattern}, ps ≠ [] → WellFormedAll ps →
    Between .comma ChoiceOf (separated .comma (tokensAll ps)) (spliceSteps ps)
  | [_], _, h => by
    rw [spliceSteps, spliceSteps, List.append_nil]
    exact choices_tokens h.1
  | _ :: q :: ps, _, h =>
    (choices_tokens h.1).append (choices_separated (List.cons_ne_nil q ps) h.2)

theorem phrases_separated : ∀ {ps : List Pattern}, ps ≠ [] → WellFormedAll ps →
    Between .bar PhraseOf (separated .bar (groupedAll ps)) (spliceAll ps)
  | [_], _, h => (itemsOf_grouped h.1).phrase
  | _ :: q :: ps, _, h =>
    (itemsOf_grouped h.1).phrase.append (phrases_separated (List.cons_ne_nil q ps) h.2)

end

theorem ofSequence_steps_splice {p : Pattern} (h : p.WellFormed) :
    ofSequence p.splice.steps = p.splice := by
  cases p with
  | sequence steps =>
    have two := Nat.le_trans h.1 (length_spliceSteps h.2)
    exact ofSequence_of_two_le two
  | _ => rfl

/-- **The grammar derives the spliced pattern from the tokens of a well-formed pattern.** -/
theorem sequenceOf_tokens {p : Pattern} (h : p.WellFormed) : SequenceOf p.tokens p.splice := by
  have derived := SequenceOf.of (choices_tokens h)
  rwa [ofSequence_steps_splice h] at derived

/-! ### Patterns that read back -/

def isSequence : Pattern → Bool
  | .sequence _ => true
  | _ => false

mutual

/-- No step of a sequence is a sequence, at any depth. -/
def Flat : Pattern → Prop
  | .sequence steps => FlatSteps steps
  | .choice branches => FlatAll branches
  | .star inner => Flat inner
  | .plus inner => Flat inner
  | .times inner _ _ => Flat inner
  | .forward _ => True
  | .anyStep => True
  | .backward _ => True

def FlatSteps : List Pattern → Prop
  | [] => True
  | p :: ps => p.isSequence = false ∧ Flat p ∧ FlatSteps ps

def FlatAll : List Pattern → Prop
  | [] => True
  | p :: ps => Flat p ∧ FlatAll ps

end

theorem isSequence_splice (p : Pattern) : p.splice.isSequence = p.isSequence := by
  cases p <;> rfl

theorem steps_eq_singleton {p : Pattern} (h : p.isSequence = false) : p.steps = [p] := by
  cases p <;> first | rfl | cases h

/-- A sequence has more than one step. -/
theorem steps_splice_eq_singleton_iff {p : Pattern} (h : p.WellFormed) {q : Pattern} :
    p.splice.steps = [q] ↔ p.isSequence = false ∧ p.splice = q := by
  cases sequence : p.isSequence with
  | false =>
    have single : p.splice.isSequence = false := (isSequence_splice p).trans sequence
    rw [steps_eq_singleton single]
    simp
  | true =>
    cases p with
    | sequence steps =>
      have two := Nat.le_trans h.1 (length_spliceSteps h.2)
      refine iff_of_false (fun same => ?_) nofun
      have same : spliceSteps steps = [q] := same
      rw [same] at two
      cases two
      contradiction
    | _ => cases sequence

mutual

/-- Splicing changes a pattern exactly when some step of a sequence is a sequence. -/
theorem splice_eq_self_iff : ∀ {p : Pattern}, p.WellFormed → (p.splice = p ↔ p.Flat)
  | .sequence steps, h => by
    rw [splice, Pattern.sequence.injEq, Flat]
    exact spliceSteps_eq_self_iff h.2
  | .choice branches, h => by
    rw [splice, Pattern.choice.injEq, Flat]
    exact spliceAll_eq_self_iff h.2
  | .star inner, h => by
    rw [splice, Pattern.star.injEq, Flat]
    exact splice_eq_self_iff h
  | .plus inner, h => by
    rw [splice, Pattern.plus.injEq, Flat]
    exact splice_eq_self_iff h
  | .times inner low high, h => by
    rw [splice, Pattern.times.injEq, Flat]
    simpa using splice_eq_self_iff (p := inner) h
  | .forward _, _ | .anyStep, _ | .backward _, _ => iff_of_true rfl trivial

theorem spliceSteps_eq_self_iff : ∀ {ps : List Pattern}, WellFormedAll ps →
    (spliceSteps ps = ps ↔ FlatSteps ps)
  | [], _ => iff_of_true rfl trivial
  | p :: ps, h => by
    have long := length_steps_splice h.1
    have longer := length_spliceSteps h.2
    have others := spliceSteps_eq_self_iff h.2
    have first := splice_eq_self_iff h.1
    rw [FlatSteps, ← others, ← first, ← and_assoc, ← steps_splice_eq_singleton_iff h.1,
      spliceSteps]
    constructor
    · intro same
      -- No part of the list gets shorter, so the first step stays a single one.
      have lengths := congrArg List.length same
      rw [List.length_append, List.length_cons] at lengths
      have same : p.splice.steps ++ spliceSteps ps = [p] ++ ps := same
      exact List.append_inj same (by rw [List.length_singleton]; omega)
    · rintro ⟨single, same⟩
      rw [single, same, List.singleton_append]

theorem spliceAll_eq_self_iff : ∀ {ps : List Pattern}, WellFormedAll ps →
    (spliceAll ps = ps ↔ FlatAll ps)
  | [], _ => iff_of_true rfl trivial
  | p :: ps, h => by
    rw [spliceAll, List.cons.injEq, FlatAll, splice_eq_self_iff h.1, spliceAll_eq_self_iff h.2]

end

/-- What was read is well-formed. -/
theorem wellFormed_of_compile {source : String} {p : Pattern} (compiled : compile source = .ok p) :
    p.WellFormed :=
  ((compile_eq_ok_iff source p).1 compiled).wellFormed readable_of_mem_tokensOf

/-- The text of a well-formed pattern is read as the spliced pattern. -/
theorem compile_text_of_wellFormed {p : Pattern} (h : p.WellFormed) :
    compile p.text = .ok p.splice := by
  rw [compile_eq_ok_iff, tokensOf_text h]
  exact sequenceOf_tokens h

/-- **A pattern that was read reads back from its text exactly when it is flat.** -/
theorem compile_text_eq_self_iff {source : String} {p : Pattern}
    (compiled : compile source = .ok p) : compile p.text = .ok p ↔ p.Flat := by
  have wellFormed := wellFormed_of_compile compiled
  rw [compile_text_of_wellFormed wellFormed, Except.ok.injEq, splice_eq_self_iff wellFormed]

/-- An alternation is kept together in a sequence, and a sequence in a repetition. -/
theorem compile_text_repeated : ∃ p, compile "a,b|<c,(d,e)*" = .ok p ∧
    p = .sequence [.forward "a", .choice [.forward "b", .backward "c"],
      .star (.sequence [.forward "d", .forward "e"])] ∧ p.Flat ∧
    (compile p.text = .ok p ↔ p.Flat) := by
  set p : Pattern := .sequence [.forward "a", .choice [.forward "b", .backward "c"],
    .star (.sequence [.forward "d", .forward "e"])]
  have wellFormed : p.WellFormed := by
    simp [p, WellFormed, WellFormedAll, IsName, isNameChar, isWord, isAsciiWord]
  have compiled : compile "a,b|<c,(d,e)*" = .ok p := by
    have tokens : tokensOf "a,b|<c,(d,e)*" = p.tokens := by rfl
    rw [compile_eq_ok_iff, tokens]
    exact sequenceOf_tokens wellFormed
  refine ⟨p, compiled, rfl, ?_, compile_text_eq_self_iff compiled⟩
  simp [p, Flat, FlatSteps, FlatAll, isSequence]

/-- A sequence that is a step of a sequence is not kept together. -/
theorem compile_text_nested : ∃ p, compile "a,(b,c)" = .ok p ∧
    compile p.text = .ok (.sequence [.forward "a", .forward "b", .forward "c"]) ∧
    compile p.text ≠ .ok p := by
  set inner : Pattern := .sequence [.forward "b", .forward "c"]
  have first : WellFormed (.forward "a") := by
    simp [WellFormed, IsName, isNameChar, isWord, isAsciiWord]
  have second : inner.WellFormed := by
    simp [inner, WellFormed, WellFormedAll, IsName, isNameChar, isWord, isAsciiWord]
  have compiled : compile "a,(b,c)" = .ok (.sequence [.forward "a", inner]) := by
    have derived := (choices_tokens first).append (itemsOf_grouped second).choice
    have tokens : tokensOf "a,(b,c)" = tokens (.forward "a") ++ .mark .comma :: inner.grouped := by
      rfl
    rw [compile_eq_ok_iff, tokens]
    exact .of derived
  have read := compile_text_of_wellFormed (wellFormed_of_compile compiled)
  refine ⟨.sequence [.forward "a", inner], compiled, read, ?_⟩
  rw [read]
  simp [splice, spliceSteps, steps, inner]

end Pattern

end GraphQuery
