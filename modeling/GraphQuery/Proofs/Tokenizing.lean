import GraphQuery.Path.Reading
import GraphQuery.Proofs.TokenText

/-!
# How a text is cut into tokens

A text is cut from the left: a name stands for all the name characters there are from where it
begins, a mark for itself, and every other character is dropped. There is one way to do so. Hence a
text loses nothing but the dropped characters, two names in a row have some of those between them,
and tokens written with a space between any two are the tokens of what is written. A pattern is read
from its tokens, so it may as well be written like that.

Key definitions: `isTokenChar`, `Token.Cuts`.
Key theorems: `tokensOf_eq_iff`, `Token.Cuts.split`, `tokensOf_faithful`.
-/

namespace GraphQuery

/-- The characters that tokens are made of. The others are dropped. -/
def isTokenChar (c : Char) : Bool := isNameChar c || (Mark.ofChar? c).isSome

namespace Token

/-- The tokens that a text is cut into, from the left. A name goes on as long as it can. -/
inductive Cuts : List Char → List Token → Prop where
  | nil : Cuts [] []
  | dropped {c : Char} {rest : List Char} {tokens : List Token} : isTokenChar c = false →
    Cuts rest tokens → Cuts (c :: rest) tokens
  | mark {rest : List Char} {tokens : List Token} (m : Mark) : Cuts rest tokens →
    Cuts (m.char :: rest) (mark m :: tokens)
  | name {text : String} {rest : List Char} {tokens : List Token} : Pattern.IsName text →
    (∀ c ∈ rest.head?, isNameChar c = false) → Cuts rest tokens →
    Cuts (text.toList ++ rest) (name text :: tokens)

/-! ### The tokens that are found -/

theorem isTokenChar_eq_false_iff {c : Char} :
    isTokenChar c = false ↔ isNameChar c = false ∧ ofChar c = [] := by
  simp [isTokenChar, ofChar]

theorem toList_text_mark (m : Mark) : (mark m).text.toList = [m.char] := String.toList_ofList

theorem isTokenChar_mark (m : Mark) : isTokenChar m.char = true := by simp [isTokenChar]

theorem isTokenChar_of_isName {text : String} (named : Pattern.IsName text) :
    ∀ c ∈ text.toList, isTokenChar c = true := fun c mem => by
  rw [isTokenChar, named.2 c mem, Bool.true_or]

namespace Cuts

variable {cs rest : List Char} {tokens : List Token}

/-- A run of name characters that ends here is a name, if it is not empty. -/
theorem run (h : Cuts rest tokens) (ends : ∀ c ∈ rest.head?, isNameChar c = false) :
    ∀ {run : List Char}, (∀ c ∈ run, isNameChar c = true) →
      Cuts (run.reverse ++ rest) (ofRun run ++ tokens)
  | [], _ => h
  | c :: run, names => by
    have chars : (String.ofList (c :: run).reverse).toList = (c :: run).reverse :=
      String.toList_ofList
    have named : Pattern.IsName (String.ofList (c :: run).reverse) := by
      rw [Pattern.IsName, chars]
      exact ⟨by simp, fun d mem => names d (List.mem_reverse.1 mem)⟩
    have cut := name named ends h
    rwa [chars] at cut

/-- A character that is no part of a name is a mark or is dropped. -/
theorem char (h : Cuts rest tokens) {c : Char} (other : isNameChar c = false) :
    Cuts (c :: rest) (ofChar c ++ tokens) := by
  cases found : Mark.ofChar? c with
  | none =>
    have none : ofChar c = [] := by rw [ofChar, found]; rfl
    rw [none]
    exact h.dropped (isTokenChar_eq_false_iff.2 ⟨other, none⟩)
  | some m =>
    have single : ofChar c = [Token.mark m] := by rw [ofChar, found]; rfl
    rw [single, Mark.ofChar?_eq_some_iff.1 found]
    exact h.mark m

/-- The scan cuts what is left of the text, after the run of name characters before it. -/
theorem of_scan : ∀ {rest run : List Char}, (∀ c ∈ run, isNameChar c = true) →
    Cuts (run.reverse ++ rest) (scan run rest)
  | [], run, names => by
    have cut := nil.run (by simp) names
    rw [List.append_nil (ofRun run)] at cut
    exact cut
  | c :: rest, run, names => by
    rw [scan]
    by_cases named : isNameChar c = true
    · -- The character joins the run, which grows at its front.
      have cut : Cuts ((c :: run).reverse ++ rest) (scan (c :: run) rest) :=
        of_scan (List.forall_mem_cons.2 ⟨named, names⟩)
      rw [List.reverse_cons, List.append_assoc, List.singleton_append] at cut
      rwa [if_pos named]
    · have other : isNameChar c = false := by simpa using named
      have later : Cuts rest (scan [] rest) := of_scan (List.forall_mem_nil _)
      rw [if_neg named, List.append_assoc]
      exact (later.char other).run (by simpa using other) names

/-- No text is cut in two ways: the scan finds the tokens. -/
theorem scan_eq (h : Cuts cs tokens) : scan [] cs = tokens := by
  induction h with
  | nil => rfl
  | @dropped c rest tokens other _ ih =>
    obtain ⟨other, none⟩ := isTokenChar_eq_false_iff.1 other
    rw [scan, if_neg (by simp [other]), ih, none]
    rfl
  | @mark rest tokens m _ ih =>
    have marked := scan_mark m rest [] []
    rw [List.nil_append] at marked
    rw [marked, ih]
    rfl
  | name named ends _ ih => rw [scan_name named ends, ih]

end Cuts

end Token

/-- **The tokens of a text are those that it is cut into.** -/
theorem tokensOf_eq_iff {text : String} {tokens : List Token} :
    tokensOf text = tokens ↔ Token.Cuts text.toList tokens := by
  constructor
  · rintro rfl
    exact Token.Cuts.of_scan (List.forall_mem_nil _)
  · exact Token.Cuts.scan_eq

/-! ### What the tokens keep of the text -/

namespace Token.Cuts

variable {cs rest : List Char} {tokens : List Token}

/-- Every token is a mark or a name. -/
theorem readable (h : Cuts cs tokens) : ∀ token ∈ tokens, token.Readable := by
  induction h with
  | nil => exact List.forall_mem_nil _
  | dropped _ _ ih => exact ih
  | mark m _ ih => exact List.forall_mem_cons.2 ⟨trivial, ih⟩
  | name named _ _ ih => exact List.forall_mem_cons.2 ⟨named, ih⟩

/-- Nothing is lost but the dropped characters. -/
theorem chars_eq (h : Cuts cs tokens) : chars tokens = cs.filter isTokenChar := by
  induction h with
  | nil => rfl
  | dropped other _ ih => rw [ih, List.filter_cons_of_neg (by simp [other])]
  | @mark rest tokens m _ ih =>
    have head : chars (Token.mark m :: tokens) = [m.char] ++ chars tokens := by
      rw [← toList_text_mark]
      exact List.flatMap_cons
    rw [head, ih, List.filter_cons_of_pos (isTokenChar_mark m), List.singleton_append]
  | @name text rest tokens named _ _ ih =>
    have head : chars (Token.name text :: tokens) = text.toList ++ chars tokens :=
      List.flatMap_cons
    rw [head, ih, List.filter_append, List.filter_eq_self.2 (isTokenChar_of_isName named)]

/-- A text without tokens is dropped as a whole. -/
theorem dropped_of_nil (h : Cuts cs []) : ∀ c ∈ cs, isTokenChar c = false := by
  have lost := h.chars_eq
  intro c mem
  have other := List.filter_eq_nil_iff.1 lost.symm c mem
  simpa using other

/-- **A text is cut at each of its tokens**, and what comes before and after is cut alone. -/
theorem split (h : Cuts cs tokens) : ∀ {before : List Token} {token : Token} {after : List Token},
    tokens = before ++ token :: after → ∃ left right,
      cs = left ++ token.text.toList ++ right ∧ Cuts left before ∧ Cuts right after ∧
        ∀ text, token = Token.name text → ∀ c ∈ right.head?, isNameChar c = false := by
  induction h with
  | nil => simp
  | @dropped c rest tokens other _ ih =>
    intro before token after same
    obtain ⟨left, right, rfl, cut, cut₁, ends⟩ := ih same
    exact ⟨c :: left, right, by simp, cut.dropped other, cut₁, ends⟩
  | @mark rest tokens m later ih =>
    intro before token after same
    rcases List.cons_eq_append_iff.1 same with ⟨rfl, here⟩ | ⟨before, rfl, inner⟩
    · obtain ⟨rfl, rfl⟩ := List.cons.inj here
      exact ⟨[], rest, by simp [toList_text_mark], nil, later, nofun⟩
    · obtain ⟨left, right, rfl, cut, cut₁, ends⟩ := ih inner
      exact ⟨m.char :: left, right, by simp, cut.mark m, cut₁, ends⟩
  | @name text rest tokens named stop later ih =>
    intro before token after same
    rcases List.cons_eq_append_iff.1 same with ⟨rfl, here⟩ | ⟨before, rfl, inner⟩
    · obtain ⟨rfl, rfl⟩ := List.cons.inj here
      exact ⟨[], rest, rfl, nil, later, fun _ _ => stop⟩
    · obtain ⟨left, right, rfl, cut, cut₁, ends⟩ := ih inner
      -- What is left of the text still ends the name.
      have stop₁ : ∀ c ∈ left.head?, isNameChar c = false := by
        intro c first
        refine stop c ?_
        rw [List.append_assoc, List.head?_append, Option.mem_def.1 first]
        rfl
      exact ⟨text.toList ++ left, right, by simp, cut.name named stop₁, cut₁, ends⟩

/-- Two names in a row have dropped characters between them. -/
theorem gap {before after : List Token} {a b : String}
    (h : Cuts cs (before ++ .name a :: .name b :: after)) : ∃ left gap right,
      cs = left ++ a.toList ++ gap ++ b.toList ++ right ∧ gap ≠ [] ∧
        (∀ c ∈ gap, isTokenChar c = false) ∧ Cuts left before ∧ Cuts right after := by
  obtain ⟨left, rest, rfl, cut, later, ends⟩ := h.split rfl
  obtain ⟨gap, right, rfl, cut₁, cut₂, -⟩ := later.split (List.nil_append _).symm
  refine ⟨left, gap, right, by simp [text], ?_, cut₁.dropped_of_nil, cut, cut₂⟩
  rintro rfl
  -- Without a gap the second name would begin where the first one ends.
  have named : Pattern.IsName b := later.readable _ List.mem_cons_self
  obtain ⟨c, others, chars⟩ := List.exists_cons_of_ne_nil named.1
  have ends := ends a rfl c (by simp [text, chars])
  have mem : c ∈ b.toList := by simp [chars]
  rw [named.2 c mem] at ends
  cases ends

/-! ### Tokens with spaces between them -/

theorem isTokenChar_space : isTokenChar ' ' = false := by decide

/-- A token before a space is one of the tokens. -/
theorem cons_space (h : Cuts rest tokens) : ∀ {token : Token}, token.Readable →
    Cuts (token.text.toList ++ ' ' :: rest) (token :: tokens)
  | .mark m, _ => by
    rw [toList_text_mark]
    exact (h.dropped isTokenChar_space).mark m
  | .name text, named => by
    have ends : ∀ c ∈ (' ' :: rest).head?, isNameChar c = false := by
      rintro c ⟨⟩
      exact (isTokenChar_eq_false_iff.1 isTokenChar_space).1
    exact (h.dropped isTokenChar_space).name named ends

/-- Tokens written with spaces between them are cut as they were written. -/
theorem spaced : ∀ {tokens : List Token}, (∀ token ∈ tokens, token.Readable) →
    Cuts ([' '].intercalate (tokens.map fun token => token.text.toList)) tokens
  | [], _ => nil
  | [token], readable => by
    rw [List.map_singleton, List.intercalate_singleton]
    have readable := readable token (List.mem_singleton_self token)
    cases token with
    | mark m =>
      rw [toList_text_mark]
      exact nil.mark m
    | name text =>
      have cut := nil.name readable (by simp)
      rwa [List.append_nil] at cut
  | token :: next :: tokens, readable => by
    have ⟨first, others⟩ := List.forall_mem_cons.1 readable
    rw [List.map_cons, List.map_cons, List.intercalate_cons_cons, List.append_assoc,
      List.singleton_append]
    exact (spaced others).cons_space first

end Token.Cuts

/-- The tokens of a text, written with spaces between them, have the same tokens. -/
theorem tokensOf_joined (text : String) :
    tokensOf (Token.joined (tokensOf text)) = tokensOf text := by
  rw [tokensOf_eq_iff, Token.joined, String.toList_intercalate, List.map_map]
  exact Token.Cuts.spaced readable_of_mem_tokensOf

namespace Pattern

/-- Texts with the same tokens are read as the same pattern, or have the same fault. -/
theorem compile_congr {text other : String} (same : tokensOf text = tokensOf other) :
    (compile text).mapError PathError.fault = (compile other).mapError PathError.fault := by
  unfold compile
  rw [same]
  by_cases none : (tokensOf other).isEmpty = true
  · simp only [none, if_true]
    rfl
  · simp only [none]
    cases ofSequenceTokens (tokensOf other) <;> rfl

end Pattern

/-- **The tokens of a text are faithful to it.** Each is one mark or a run of name characters, they
are all of the text but the dropped characters, two names in a row have some of those between them,
and the text may be replaced by its tokens with a space between any two. -/
theorem tokensOf_faithful (text : String) :
    (∀ token ∈ tokensOf text, (∃ m : Mark, token.text.toList = [m.char]) ∨
      token.text.toList ≠ [] ∧ ∀ c ∈ token.text.toList, isNameChar c = true) ∧
    (String.join ((tokensOf text).map Token.text)).toList = text.toList.filter isTokenChar ∧
    (∀ before a b after, tokensOf text = before ++ .name a :: .name b :: after →
      ∃ left gap right : String, text = left ++ a ++ gap ++ b ++ right ∧ gap ≠ "" ∧
        (∀ c ∈ gap.toList, isTokenChar c = false) ∧ tokensOf left = before ∧
        tokensOf right = after) ∧
    tokensOf (Token.joined (tokensOf text)) = tokensOf text ∧
    (Pattern.compile (Token.joined (tokensOf text))).mapError PathError.fault =
      (Pattern.compile text).mapError PathError.fault := by
  have cut : Token.Cuts text.toList (tokensOf text) := tokensOf_eq_iff.1 rfl
  refine ⟨?_, ?_, ?_, tokensOf_joined text, Pattern.compile_congr (tokensOf_joined text)⟩
  · intro token mem
    have readable := readable_of_mem_tokensOf token mem
    cases token with
    | mark m => exact .inl ⟨m, Token.toList_text_mark m⟩
    | name text => exact .inr readable
  · rw [String.toList_join, List.flatMap_map]
    exact cut.chars_eq
  · intro before a b after same
    rw [same] at cut
    obtain ⟨left, gap, right, whole, some, dropped, cut₁, cut₂⟩ := cut.gap
    refine ⟨.ofList left, .ofList gap, .ofList right, ?_, ?_, ?_, ?_, ?_⟩
    · simp [← String.toList_inj, whole]
    · simpa [← String.toList_inj] using some
    · simpa using dropped
    · exact tokensOf_eq_iff.2 (by simpa using cut₁)
    · exact tokensOf_eq_iff.2 (by simpa using cut₂)

/-- A semicolon is dropped, and only the marks keep the last two names apart. -/
theorem tokensOf_faithful_semicolon : ∃ text tokens,
    text = "scm:a;b|<é>" ∧ tokensOf text = tokens ∧
    tokens = [.name "scm:a", .name "b", .mark .bar, .mark .less, .name "é", .mark .greater] ∧
    Token.name "é" ∈ tokensOf text ∧
    ((∃ m : Mark, (Token.name "é").text.toList = [m.char]) ∨
      (Token.name "é").text.toList ≠ [] ∧
        ∀ c ∈ (Token.name "é").text.toList, isNameChar c = true) ∧
    (String.join (tokens.map Token.text)).toList = text.toList.filter isTokenChar ∧
    tokensOf text = [] ++ .name "scm:a" :: .name "b" :: tokens.drop 2 ∧
    (∃ left gap right : String, text = left ++ "scm:a" ++ gap ++ "b" ++ right ∧ gap ≠ "" ∧
      (∀ c ∈ gap.toList, isTokenChar c = false) ∧ tokensOf left = [] ∧
        tokensOf right = tokens.drop 2) ∧
    Token.joined tokens = "scm:a b | < é >" ∧ tokensOf "scm:a b | < é >" = tokens ∧
    (Pattern.compile "scm:a b | < é >").mapError PathError.fault =
      (Pattern.compile text).mapError PathError.fault := by
  obtain ⟨tokens, listed⟩ : ∃ tokens : List Token, tokens =
      [.name "scm:a", .name "b", .mark .bar, .mark .less, .name "é", .mark .greater] := ⟨_, rfl⟩
  have found : tokensOf "scm:a;b|<é>" = tokens := by rw [listed]; rfl
  have joined : Token.joined tokens = "scm:a b | < é >" := by rw [listed]; rfl
  have pair : tokensOf "scm:a;b|<é>" = [] ++ .name "scm:a" :: .name "b" :: tokens.drop 2 := by
    rw [found, listed]; rfl
  have mem : Token.name "é" ∈ tokensOf "scm:a;b|<é>" := by simp [found, listed]
  obtain ⟨each, kept, apart, stable, read⟩ := tokensOf_faithful "scm:a;b|<é>"
  have here := each _ mem
  rw [found] at kept stable read
  rw [joined] at stable read
  exact ⟨_, tokens, rfl, found, listed, mem, here, kept, pair, apart [] _ _ _ pair, joined, stable,
    read⟩

end GraphQuery
