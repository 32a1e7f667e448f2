import GraphQuery.Proofs.Splitting
import GraphQuery.Proofs.Success

/-!
# The grammar of path patterns

Reading accepts exactly the tokens that the grammar derives, and gives the pattern that the
derivation denotes. A derivation has matching brackets, so that splitting finds the separators
between its parts and nothing else, and a group ends where its derivation does. In the other
direction, a part of a split has no separator and no closing bracket where an item is read, so that
such a mark is never taken for a name and nothing after a group is lost.

Key definitions: `Between`, `ItemOf`, `ItemsOf`, `PhraseOf`, `ChoiceOf`, `SequenceOf`.
Key theorems: `SequenceOf.bracketed`, `ItemsOf.of_phraseFrom`, `ItemsOf.phraseFrom_eq`,
`Pattern.ofSequenceTokens_eq_ok_iff`, `Pattern.compile_eq_ok_iff`.
-/

namespace GraphQuery

/-- One or more parts with a mark between them, and the pattern of each. -/
inductive Between (m : Mark) (Part : List Token → Pattern → Prop) :
    List Token → List Pattern → Prop where
  | one {tokens : List Token} {p : Pattern} : Part tokens p → Between m Part tokens [p]
  | more {tokens rest : List Token} {p : Pattern} {ps : List Pattern} :
    Part tokens p → Between m Part rest ps → Between m Part (tokens ++ .mark m :: rest) (p :: ps)

mutual

/-- An item of a phrase, with the patterns read before it and after it. -/
inductive ItemOf : List Token → Option Pattern → Option Pattern → Prop where
  | name {read : Option Pattern} (text : String) : ItemOf [.name text] read (some (.forward text))
  | anyStep {read : Option Pattern} : ItemOf [.mark .dot] read (some .anyStep)
  | backward {read : Option Pattern} (text : String) :
    ItemOf [.mark .less, .name text] read (some (.backward text))
  | group {read : Option Pattern} {tokens : List Token} {p : Pattern} :
    SequenceOf tokens p → ItemOf (Pattern.parenthesized tokens) read (some p)
  | greater {read : Option Pattern} : ItemOf [.mark .greater] read read
  | star {p : Pattern} : ItemOf [.mark .star] (some p) (some (.star p))
  | plus {p : Pattern} : ItemOf [.mark .plus] (some p) (some (.plus p))
  | times {p : Pattern} {low high : Token} {m k : UInt64} :
    low.count? = some m → high.count? = some k →
    ItemOf [.mark .openBrace, low, .mark .comma, high, .mark .closeBrace] (some p)
      (some (.times p m k))

/-- Items one after another, with the patterns read before the first and after the last. -/
inductive ItemsOf : List Token → Option Pattern → Option Pattern → Prop where
  | nil {read : Option Pattern} : ItemsOf [] read read
  | cons {item rest : List Token} {read next last : Option Pattern} :
    ItemOf item read next → ItemsOf rest next last → ItemsOf (item ++ rest) read last

/-- Items that lead from no pattern to one. -/
inductive PhraseOf : List Token → Pattern → Prop where
  | of {tokens : List Token} {p : Pattern} : ItemsOf tokens none (some p) → PhraseOf tokens p

/-- Phrases between bars; a single one stands for itself. -/
inductive ChoiceOf : List Token → Pattern → Prop where
  | of {tokens : List Token} {branches : List Pattern} :
    Between .bar PhraseOf tokens branches → ChoiceOf tokens (.ofChoice branches)

/-- Alternations between commas; a single one stands for itself. -/
inductive SequenceOf : List Token → Pattern → Prop where
  | of {tokens : List Token} {steps : List Pattern} :
    Between .comma ChoiceOf tokens steps → SequenceOf tokens (.ofSequence steps)

end

/-! ### Brackets -/

theorem Token.isBracket_of_count? {token : Token} {n : UInt64} (h : token.count? = some n) :
    token.isBracket = false := by
  cases token with
  | mark m => cases h
  | name text => rfl

theorem bracketed_bounds {low high : Token} {m k : UInt64} (h : low.count? = some m)
    (h₁ : high.count? = some k) : Bracketed [low, .mark .comma, high] :=
  .cons (Token.isBracket_of_count? h) (.cons rfl (.token (Token.isBracket_of_count? h₁)))

mutual

theorem ItemOf.bracketed : ∀ {tokens : List Token} {read next : Option Pattern},
    ItemOf tokens read next → Bracketed tokens
  | _, _, _, .name _ | _, _, _, .anyStep | _, _, _, .greater | _, _, _, .star | _, _, _, .plus =>
    .token rfl
  | _, _, _, .backward _ => .cons rfl (.token rfl)
  | _, _, _, .group h => .paren h.bracketed
  | _, _, _, .times h h₁ => .brace (bracketed_bounds h h₁)

theorem ItemsOf.bracketed : ∀ {tokens : List Token} {read last : Option Pattern},
    ItemsOf tokens read last → Bracketed tokens
  | _, _, _, .nil => .nil
  | _, _, _, .cons first others => first.bracketed.append others.bracketed

theorem PhraseOf.bracketed : ∀ {tokens : List Token} {p : Pattern},
    PhraseOf tokens p → Bracketed tokens
  | _, _, .of h => h.bracketed

theorem bracketed_of_phrases : ∀ {tokens : List Token} {ps : List Pattern},
    Between .bar PhraseOf tokens ps → Bracketed tokens
  | _, _, .one h => h.bracketed
  | _, _, .more h hs => h.bracketed.append (.cons rfl (bracketed_of_phrases hs))

theorem ChoiceOf.bracketed : ∀ {tokens : List Token} {p : Pattern},
    ChoiceOf tokens p → Bracketed tokens
  | _, _, .of h => bracketed_of_phrases h

theorem bracketed_of_choices : ∀ {tokens : List Token} {ps : List Pattern},
    Between .comma ChoiceOf tokens ps → Bracketed tokens
  | _, _, .one h => h.bracketed
  | _, _, .more h hs => h.bracketed.append (.cons rfl (bracketed_of_choices hs))

/-- The brackets of what the grammar derives match. -/
theorem SequenceOf.bracketed : ∀ {tokens : List Token} {p : Pattern},
    SequenceOf tokens p → Bracketed tokens
  | _, _, .of h => bracketed_of_choices h

end

/-! ### Separators -/

variable {tokens rest : List Token} {read next last : Option Pattern} {p : Pattern}
  {ps : List Pattern} {m : Mark}

/-- No separator splits an item. -/
theorem ItemOf.seamless (h : ItemOf tokens read next) (separates : m = .comma ∨ m = .bar)
    (depth : Depth) : Seamless (.mark m) depth tokens := by
  have plain : Token.isBracket (.mark m) = false := by
    rcases separates with rfl | rfl <;> rfl
  have single : ∀ token : Token, token.isBracket = false → token ≠ .mark .comma →
      token ≠ .mark .bar → Seamless (.mark m) depth [token] := by
    intro token plain no_comma no_bar
    refine seamless_token plain (.inr ?_)
    rcases separates with rfl | rfl
    · exact no_comma
    · exact no_bar
  cases h with
  | name text => exact single _ rfl (by simp) (by simp)
  | anyStep => exact single _ rfl (by simp) (by simp)
  | backward text =>
    have less := single (.mark .less) rfl (by simp) (by simp)
    have name := single (.name text) rfl (by simp) (by simp)
    exact less.append name
  | group h => exact (h.bracketed.seamless plain _ (by simp [Depth.outside])).paren plain
  | greater => exact single _ rfl (by simp) (by simp)
  | star => exact single _ rfl (by simp) (by simp)
  | plus => exact single _ rfl (by simp) (by simp)
  | times h h₁ =>
    exact ((bracketed_bounds h h₁).seamless plain _ (by simp [Depth.outside])).brace plain

theorem ItemsOf.seamless (separates : m = .comma ∨ m = .bar) (depth : Depth) :
    ∀ {tokens : List Token} {read last : Option Pattern}, ItemsOf tokens read last →
      Seamless (.mark m) depth tokens
  | _, _, _, .nil => seamless_nil
  | _, _, _, .cons first others =>
    (first.seamless separates depth).append (others.seamless separates depth)

theorem PhraseOf.seamless (h : PhraseOf tokens p) (separates : m = .comma ∨ m = .bar)
    (depth : Depth) : Seamless (.mark m) depth tokens := by
  cases h with
  | of h => exact h.seamless separates depth

/-- No comma splits an alternation. -/
theorem ChoiceOf.seamless (h : ChoiceOf tokens p) (depth : Depth) :
    Seamless (.mark .comma) depth tokens := by
  cases h with
  | of branches =>
    induction branches with
    | one h => exact h.seamless (.inl rfl) depth
    | more h _ ih =>
      have bar : Seamless (.mark .comma) depth [.mark .bar] := seamless_token rfl (.inr (by simp))
      exact (h.seamless (.inl rfl) depth).append (bar.append ih)

/-! ### Parts -/

/-- Splitting finds the parts of a derivation. -/
theorem Between.exists_parts {Part : List Token → Pattern → Prop} (h : Between m Part tokens ps)
    (seamless : ∀ part p, Part part p → Seamless (.mark m) .outside part) :
    ∃ parts, splitTokens (.mark m) tokens = some parts ∧ List.Forall₂ Part parts ps := by
  induction h with
  | @one tokens p h =>
    refine ⟨[tokens], ?_, .cons h .nil⟩
    have whole := seamless tokens p h []
    rw [List.append_nil] at whole
    rw [splitTokens, whole, splitFrom, Option.map_some, prepend_part, List.append_nil]
  | @more tokens rest p ps h _ ih =>
    obtain ⟨parts, found, each⟩ := ih
    refine ⟨tokens :: parts, ?_, .cons h each⟩
    rw [splitTokens, seamless tokens p h, splitFrom, if_pos ⟨rfl, rfl⟩, ← splitTokens, found]
    rw [Option.map_some, Option.map_some, prepend_part, List.append_nil]

/-- Parts of a split that denote patterns make a derivation. -/
theorem Between.of_parts {Part : List Token → Pattern → Prop} {parts : List (List Token)}
    (found : splitTokens (.mark m) tokens = some parts) (each : List.Forall₂ Part parts ps) :
    Between m Part tokens ps := by
  have ne := splitFrom_ne_nil found
  rw [← intercalate_splitFrom found]
  clear found
  induction each with
  | nil => contradiction
  | @cons part p parts ps h each ih =>
    cases each with
    | nil => simpa [List.intercalate] using Between.one h
    | cons h₁ each => simpa [List.intercalate] using Between.more h (ih (by simp))

/-- Parts are no longer than the whole. -/
theorem Between.imp {Part Other : List Token → Pattern → Prop} (h : Between m Part tokens ps)
    (imp : ∀ part p, part.length ≤ tokens.length → Part part p → Other part p) :
    Between m Other tokens ps := by
  induction h with
  | one h => exact .one (imp _ _ (Nat.le_refl _) h)
  | more h _ ih =>
    refine .more (imp _ _ ?_ h) (ih fun part p le => imp part p ?_)
    · simp
    · rw [List.length_append, List.length_cons]
      omega

theorem partsOf_eq_ok_iff {separator : Token} {parts : List (List Token)} :
    partsOf separator tokens = .ok parts ↔ splitTokens separator tokens = some parts := by
  unfold partsOf
  cases splitTokens separator tokens <;> simp

/-- Both levels above phrases split their tokens, read each part and put the patterns together. -/
theorem readParts_eq_ok_iff {separator : Token} {readPart : List Token → Except PathError Pattern}
    {combine : List Pattern → Pattern} :
    (do
      let parts ← partsOf separator tokens
      let ps ← parts.mapM readPart
      return combine ps) = .ok p ↔
    ∃ parts ps, splitTokens separator tokens = some parts ∧
      List.Forall₂ (fun part q => readPart part = .ok q) parts ps ∧ combine ps = p := by
  simp only [bind_eq_ok_iff, partsOf_eq_ok_iff, mapM_eq_ok_iff]
  constructor
  · rintro ⟨parts, found, ps, each, same⟩
    cases same
    exact ⟨parts, ps, found, each, rfl⟩
  · rintro ⟨parts, ps, found, each, rfl⟩
    exact ⟨parts, found, ps, each, rfl⟩

/-! ### What is derived is read -/

variable {group : List Token → Except PathError Pattern} {fail : PathFault → PathError}

/-- Groups shorter than a bound are read if the grammar derives them. Groups inside of tokens are
shorter than the tokens, so this is what the reading of one level needs from the level below. -/
def ReadsBelow (bound : Nat) (group : List Token → Except PathError Pattern) : Prop :=
  ∀ inner p, inner.length < bound → SequenceOf inner p → group inner = .ok p

theorem ReadsBelow.mono {small large : Nat} (h : ReadsBelow large group) (le : small ≤ large) :
    ReadsBelow small group :=
  fun inner p short => h inner p (Nat.lt_of_lt_of_le short le)

theorem phraseFrom_group {inner after : List Token} (h : Bracketed inner) :
    phraseFrom group fail read (Pattern.parenthesized inner ++ after) =
      (group inner).bind fun p => phraseFrom group fail (some p) after := by
  have found := h.splitGroup_eq_some after
  rw [Pattern.parenthesized, List.cons_append, List.cons_append, List.append_assoc,
    List.singleton_append, phraseFrom]
  split
  · next none =>
    rw [found] at none
    cases none
  · next found₁ =>
    rw [found] at found₁
    cases found₁
    rfl

theorem readBound_eq_ok_iff {token : Option Token} {n : UInt64} :
    readBound token = .ok n ↔ ∃ found, token = some found ∧ found.count? = some n := by
  unfold readBound
  cases token with
  | none => simp
  | some found => cases count : found.count? <;> simp [count]

/-- Bounds are read if they are a count, a comma, a count and a closing brace. -/
theorem readBounds_eq_ok_iff {m k : UInt64} : readBounds tokens = .ok (m, k) ↔
    ∃ low high rest, tokens = low :: .mark .comma :: high :: .mark .closeBrace :: rest ∧
      low.count? = some m ∧ high.count? = some k := by
  have checks : readBounds tokens = .ok (m, k) ↔ readBound tokens[0]? = .ok m ∧
      tokens[1]? = some (.mark .comma) ∧ readBound tokens[2]? = .ok k ∧
        tokens[3]? = some (.mark .closeBrace) := by
    unfold readBounds
    by_cases comma : tokens[1]? = some (.mark .comma) <;>
      by_cases brace : tokens[3]? = some (.mark .closeBrace) <;>
        simp [bind_eq_ok_iff, comma, brace, pure, Except.pure, throw, throwThe,
          MonadExceptOf.throw]
  rw [checks]
  simp only [readBound_eq_ok_iff]
  constructor
  · rintro ⟨⟨low, first, count⟩, second, ⟨high, third, count₁⟩, fourth⟩
    match tokens, first, second, third, fourth with
    | a :: b :: c :: d :: rest, first, second, third, fourth =>
      cases first
      cases second
      cases third
      cases fourth
      exact ⟨low, high, rest, rfl, count, count₁⟩
  · rintro ⟨low, high, rest, rfl, count, count₁⟩
    exact ⟨⟨low, rfl, count⟩, rfl, ⟨high, rfl, count₁⟩, rfl⟩

theorem ItemOf.phraseFrom_eq (h : ItemOf tokens read next) (reads : ReadsBelow tokens.length group)
    (rest : List Token) :
    phraseFrom group fail read (tokens ++ rest) = phraseFrom group fail next rest := by
  cases h with
  | name text => rw [List.singleton_append, phraseFrom]
  | anyStep => rw [List.singleton_append, phraseFrom]
  | backward text => rw [List.cons_append, List.singleton_append, phraseFrom]
  | @group _ tokens p h =>
    have short : tokens.length < (Pattern.parenthesized tokens).length := by
      simp only [Pattern.parenthesized, List.length_cons, List.length_append]
      omega
    rw [phraseFrom_group h.bracketed, reads _ _ short h]
    rfl
  | greater => rw [List.singleton_append, phraseFrom]
  | star =>
    rw [List.singleton_append, phraseFrom]
    rfl
  | plus =>
    rw [List.singleton_append, phraseFrom]
    rfl
  | times h h₁ =>
    simp only [List.cons_append, List.nil_append]
    rw [phraseFrom, readBounds_eq_ok_iff.2 ⟨_, _, rest, rfl, h, h₁⟩]
    rfl

/-- Items are read as the grammar derives them. -/
theorem ItemsOf.phraseFrom_eq : ∀ {tokens : List Token} {read last : Option Pattern},
    ItemsOf tokens read last → ReadsBelow tokens.length group → ∀ rest,
      phraseFrom group fail read (tokens ++ rest) = phraseFrom group fail last rest
  | _, _, _, .nil, _, _ => rfl
  | _, _, _, .cons first others, reads, rest => by
    rw [List.length_append] at reads
    rw [List.append_assoc, first.phraseFrom_eq (reads.mono (by omega)),
      others.phraseFrom_eq (reads.mono (by omega))]

theorem PhraseOf.phraseWith_eq (h : PhraseOf tokens p) (reads : ReadsBelow tokens.length group) :
    phraseWith group tokens = .ok p := by
  cases h with
  | of h =>
    have all : phraseFrom group (.ofTokens tokens) none (tokens ++ []) =
        phraseFrom group (.ofTokens tokens) (some p) [] := h.phraseFrom_eq reads []
    rwa [List.append_nil, phraseFrom] at all

theorem ChoiceOf.choiceWith_eq (h : ChoiceOf tokens p) (reads : ReadsBelow tokens.length group) :
    choiceWith group tokens = .ok p := by
  cases h with
  | @of _ branches h =>
    have read : Between .bar (fun part q => PhraseOf part q ∧ phraseWith group part = .ok q)
        tokens branches := h.imp fun part q le h => ⟨h, h.phraseWith_eq (reads.mono le)⟩
    obtain ⟨parts, found, each⟩ :=
      read.exists_parts fun part q h => h.1.seamless (.inr rfl) .outside
    exact readParts_eq_ok_iff.2 ⟨parts, branches, found, each.imp fun _ _ h => h.2, rfl⟩

theorem SequenceOf.sequenceWith_eq (h : SequenceOf tokens p)
    (reads : ReadsBelow tokens.length group) : sequenceWith group tokens = .ok p := by
  cases h with
  | @of _ steps h =>
    have read : Between .comma (fun part q => ChoiceOf part q ∧ choiceWith group part = .ok q)
        tokens steps := h.imp fun part q le h => ⟨h, h.choiceWith_eq (reads.mono le)⟩
    obtain ⟨parts, found, each⟩ := read.exists_parts fun part q h => h.1.seamless .outside
    exact readParts_eq_ok_iff.2 ⟨parts, steps, found, each.imp fun _ _ h => h.2, rfl⟩

/-- A depth of groups that is more than the number of tokens is enough. -/
theorem readsBelow_sequenceTo (depth : Nat) : ReadsBelow depth (sequenceTo depth) := by
  induction depth with
  | zero => exact fun _ _ short => absurd short (Nat.not_lt_zero _)
  | succ depth ih =>
    intro tokens p short h
    rw [sequenceTo]
    exact h.sequenceWith_eq (ih.mono (by omega))

/-! ### What is read is derived -/

/-- Tokens that no separator splits. -/
def IsPart (tokens : List Token) : Prop :=
  ∀ m : Mark, m = .comma ∨ m = .bar → Unsplit (.mark m) .outside tokens

theorem ItemOf.cons (h : ItemOf tokens read next) (part : IsPart (tokens ++ rest))
    (others : IsPart rest → ItemsOf rest next last) : ItemsOf (tokens ++ rest) read last :=
  .cons h (others fun m separates => (part m separates).of_append (h.seamless separates .outside))

/-- No separator and no closing bracket is read in the place of an item. -/
theorem IsPart.not_first (h : IsPart (.mark m :: rest))
    (stray : m = .comma ∨ m = .bar ∨ m = .closeParen ∨ m = .closeBrace) : False := by
  obtain ⟨not_comma, next, step, -⟩ := unsplit_cons_iff.1 (h .comma (.inl rfl))
  obtain ⟨not_bar, -⟩ := unsplit_cons_iff.1 (h .bar (.inr rfl))
  rcases stray with rfl | rfl | rfl | rfl
  · exact not_comma ⟨rfl, rfl⟩
  · exact not_bar ⟨rfl, rfl⟩
  · cases step
  · cases step

theorem mapError_repeated_eq_ok_iff :
    (repeated m read).mapError fail = .ok p ↔ read = some p := by
  rw [mapError_eq_ok_iff]
  cases read <;> simp [repeated]

/-- What is read as a phrase is one, if it is a part. -/
theorem ItemsOf.of_phraseFrom (sound : ∀ inner q, group inner = .ok q → SequenceOf inner q)
    (h : phraseFrom group fail read tokens = .ok p) (part : IsPart tokens) :
    ItemsOf tokens read (some p) := by
  fun_induction phraseFrom group fail read tokens with
  | case1 read =>
    cases read with
    | none => cases h
    | some q =>
      cases h
      exact .nil
  | case2 read text rest ih => exact (ItemOf.name text).cons part (ih h)
  | case3 read rest ih => exact ItemOf.anyStep.cons part (ih h)
  | case4 read text rest ih => exact (ItemOf.backward text).cons part (ih h)
  | case5 => cases h
  | case6 read rest ih => exact ItemOf.greater.cons part (ih h)
  | case7 read rest ih =>
    obtain ⟨q, found, later⟩ := bind_eq_ok_iff.1 h
    obtain rfl := mapError_repeated_eq_ok_iff.1 found
    exact ItemOf.star.cons part (ih q later)
  | case8 read rest ih =>
    obtain ⟨q, found, later⟩ := bind_eq_ok_iff.1 h
    obtain rfl := mapError_repeated_eq_ok_iff.1 found
    exact ItemOf.plus.cons part (ih q later)
  | case9 read rest ih =>
    obtain ⟨q, found, bounded⟩ := bind_eq_ok_iff.1 h
    obtain rfl := mapError_repeated_eq_ok_iff.1 found
    obtain ⟨⟨m, k⟩, bounds, later⟩ := bind_eq_ok_iff.1 bounded
    obtain ⟨low, high, rest, rfl, count, count₁⟩ :=
      readBounds_eq_ok_iff.1 (mapError_eq_ok_iff.1 bounds)
    exact (ItemOf.times count count₁).cons part (ih q m k later)
  | case10 => cases h
  | case11 read rest inner after found ih =>
    obtain ⟨q, read_inner, later⟩ := bind_eq_ok_iff.1 h
    rw [cons_openParen_eq_of_splitGroup found] at part ⊢
    exact (ItemOf.group (sound inner q read_inner)).cons part (ih q later)
  -- A closing parenthesis, a bar, a comma and a closing brace would be the end or taken as names.
  | case12 | case13 | case14 | case15 => exact (part.not_first (by simp)).elim

theorem PhraseOf.of_phraseWith (sound : ∀ inner q, group inner = .ok q → SequenceOf inner q)
    (h : phraseWith group tokens = .ok p) (part : IsPart tokens) : PhraseOf tokens p :=
  .of (ItemsOf.of_phraseFrom sound h part)

theorem ChoiceOf.of_choiceWith (sound : ∀ inner q, group inner = .ok q → SequenceOf inner q)
    (h : choiceWith group tokens = .ok p) (whole : Unsplit (.mark .comma) .outside tokens) :
    ChoiceOf tokens p := by
  obtain ⟨parts, branches, found, each, rfl⟩ := readParts_eq_ok_iff.1 h
  have isPart : ∀ part ∈ parts, IsPart part := by
    rintro part mem m (rfl | rfl)
    · exact unsplit_of_mem_splitTokens rfl (.inr whole) found part mem
    · exact unsplit_of_mem_splitTokens rfl (.inl rfl) found part mem
  have phrases := ((List.forall₂_and_left _ _).2 ⟨isPart, each⟩).imp
    fun _ _ h => PhraseOf.of_phraseWith sound h.2 h.1
  exact .of (.of_parts found phrases)

theorem SequenceOf.of_sequenceWith (sound : ∀ inner q, group inner = .ok q → SequenceOf inner q)
    (h : sequenceWith group tokens = .ok p) : SequenceOf tokens p := by
  obtain ⟨parts, steps, found, each, rfl⟩ := readParts_eq_ok_iff.1 h
  have whole : ∀ part ∈ parts, Unsplit (.mark .comma) .outside part :=
    unsplit_of_mem_splitTokens rfl (.inl rfl) found
  have choices := ((List.forall₂_and_left _ _).2 ⟨whole, each⟩).imp
    fun _ _ h => ChoiceOf.of_choiceWith sound h.2 h.1
  exact .of (.of_parts found choices)

theorem SequenceOf.of_sequenceTo (depth : Nat) :
    ∀ tokens p, sequenceTo depth tokens = .ok p → SequenceOf tokens p := by
  induction depth with
  | zero => exact nofun
  | succ depth ih => exact fun tokens p h => of_sequenceWith ih h

theorem SequenceOf.ofSequenceTokens_eq (h : SequenceOf tokens p) :
    Pattern.ofSequenceTokens tokens = .ok p :=
  readsBelow_sequenceTo _ tokens p (Nat.lt_succ_self _) h

/-- Tokens denote one pattern at most. -/
theorem SequenceOf.unique {q : Pattern} (h : SequenceOf tokens p) (h₁ : SequenceOf tokens q) :
    p = q :=
  Except.ok.inj (h.ofSequenceTokens_eq.symm.trans h₁.ofSequenceTokens_eq)

theorem not_sequenceOf_nil : ¬SequenceOf [] p := by
  intro h
  have read := h.ofSequenceTokens_eq
  simp [Pattern.ofSequenceTokens, sequenceTo, sequenceWith, choiceWith, partsOf, splitTokens,
    splitFrom, phraseWith, phraseFrom, bind, Except.bind] at read

namespace Pattern

/-- **Reading is the grammar.** Tokens are read as a pattern exactly when they derive it. -/
theorem ofSequenceTokens_eq_ok_iff (tokens : List Token) (p : Pattern) :
    ofSequenceTokens tokens = .ok p ↔ SequenceOf tokens p :=
  ⟨SequenceOf.of_sequenceTo _ tokens p, SequenceOf.ofSequenceTokens_eq⟩

/-- A text is read as a pattern exactly when its tokens derive it. -/
theorem compile_eq_ok_iff (text : String) (p : Pattern) :
    compile text = .ok p ↔ SequenceOf (tokensOf text) p := by
  unfold compile
  by_cases empty : (tokensOf text).isEmpty
  · rw [if_pos empty, List.isEmpty_iff.1 empty]
    simp [not_sequenceOf_nil]
  · rw [if_neg empty, mapError_eq_ok_iff]
    exact ⟨SequenceOf.of_sequenceTo _ _ p, SequenceOf.ofSequenceTokens_eq⟩

end Pattern

end GraphQuery
