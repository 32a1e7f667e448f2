import GraphQuery.Path.Pattern

/-!
# Tokens and their text

The names that a text is cut into are names. In the other direction, tokens are found again in their
text, one right after another, if no two names are neighbours: a mark ends the name before it and is
no part of the name after it, while two names would run together.

Key definitions: `Token.Readable`, `Spaced`.
Key theorems: `readable_of_mem_tokensOf`, `Spaced.tokensOf_join`.
-/

namespace GraphQuery

namespace Token

/-- A mark, or a name that a text can hold. -/
def Readable : Token → Prop
  | mark _ => True
  | name text => Pattern.IsName text

/-- The characters of tokens, one right after another. -/
def chars (tokens : List Token) : List Char := tokens.flatMap fun token => token.text.toList

theorem ofRun_eq {run : List Char} (ne : run ≠ []) :
    ofRun run = [name (String.ofList run.reverse)] := by
  cases run with
  | nil => exact absurd rfl ne
  | cons c run => rfl

theorem readable_ofRun {run : List Char} (names : ∀ c ∈ run, isNameChar c = true) :
    ∀ token ∈ ofRun run, token.Readable := by
  cases run with
  | nil => exact nofun
  | cons c run =>
    intro token mem
    obtain rfl := List.mem_singleton.1 mem
    have chars : (String.ofList (c :: run).reverse).toList = (c :: run).reverse :=
      String.toList_ofList
    refine ⟨by simp, ?_⟩
    rw [chars]
    exact fun c mem => names c (List.mem_reverse.1 mem)

theorem readable_scan : ∀ {rest run : List Char}, (∀ c ∈ run, isNameChar c = true) →
    ∀ token ∈ scan run rest, token.Readable
  | [], _, names => readable_ofRun names
  | c :: rest, run, names => by
    rw [scan]
    by_cases name : isNameChar c = true
    · rw [if_pos name]
      exact readable_scan (List.forall_mem_cons.2 ⟨name, names⟩)
    · rw [if_neg name]
      intro token mem
      rcases List.mem_append.1 mem with mem | mem
      · rcases List.mem_append.1 mem with mem | mem
        · exact readable_ofRun names token mem
        · obtain ⟨m, -, rfl⟩ := Option.map_eq_some_iff.1 (Option.mem_toList.1 mem)
          trivial
      · exact readable_scan (List.forall_mem_nil _) token mem

/-- Name characters go on with the name before them. -/
theorem scan_run (rest : List Char) : ∀ {cs : List Char} (run : List Char),
    (∀ c ∈ cs, isNameChar c = true) → scan run (cs ++ rest) = scan (cs.reverse ++ run) rest
  | [], _, _ => rfl
  | c :: cs, run, names => by
    have ⟨first, others⟩ := List.forall_mem_cons.1 names
    rw [List.cons_append, scan, if_pos first, scan_run rest _ others, List.reverse_cons,
      List.append_assoc, List.singleton_append]

/-- A name ends where no name character follows. -/
theorem scan_of_ends : ∀ (run : List Char) {rest : List Char},
    (∀ c ∈ rest.head?, isNameChar c = false) → scan run rest = ofRun run ++ scan [] rest
  | run, [], _ => (List.append_nil (ofRun run)).symm
  | run, c :: rest, ends => by
    have other : ¬isNameChar c = true := by simp [ends c rfl]
    rw [scan, scan, if_neg other, if_neg other, ofRun, List.nil_append, List.append_assoc]

/-- A name is found as far as it goes. -/
theorem scan_name {text : String} (named : Pattern.IsName text) {rest : List Char}
    (ends : ∀ c ∈ rest.head?, isNameChar c = false) :
    scan [] (text.toList ++ rest) = name text :: scan [] rest := by
  have reversed : text.toList.reverse ≠ [] := by simpa using named.1
  rw [scan_run rest [] named.2, List.append_nil, scan_of_ends _ ends, ofRun_eq reversed,
    List.reverse_reverse, String.ofList_toList, List.singleton_append]

/-- A mark cuts a text in two. -/
theorem scan_mark (m : Mark) (rest : List Char) : ∀ cs run : List Char,
    scan run (cs ++ m.char :: rest) = scan run cs ++ mark m :: scan [] rest
  | [], run => by
    have single : ofChar m.char = [mark m] := by simp [ofChar]
    have ends : ¬isNameChar m.char = true := by simp [isNameChar_mark]
    rw [List.nil_append, scan, scan, if_neg ends, single, List.append_assoc, List.singleton_append]
  | c :: cs, run => by
    rw [List.cons_append, scan, scan]
    by_cases name : isNameChar c = true
    · rw [if_pos name, if_pos name, scan_mark m rest cs]
    · rw [if_neg name, if_neg name, scan_mark m rest cs, List.append_assoc _ _ (mark m :: _)]

end Token

/-- The names that a text is cut into are names. -/
theorem readable_of_mem_tokensOf {text : String} : ∀ token ∈ tokensOf text, token.Readable :=
  Token.readable_scan (List.forall_mem_nil _)

/-- Tokens without neighbouring names. -/
inductive Spaced : List Token → Prop where
  | nil : Spaced []
  | name {text : String} : Pattern.IsName text → Spaced [.name text]
  | between {before after : List Token} (m : Mark) :
    Spaced before → Spaced after → Spaced (before ++ .mark m :: after)

namespace Spaced

variable {tokens : List Token}

theorem mark (m : Mark) : Spaced [.mark m] := between m .nil .nil

theorem cons (m : Mark) (h : Spaced tokens) : Spaced (.mark m :: tokens) := between m .nil h

theorem concat (m : Mark) (h : Spaced tokens) : Spaced (tokens ++ [.mark m]) := between m h .nil

theorem scan_chars (h : Spaced tokens) : Token.scan [] (Token.chars tokens) = tokens := by
  induction h with
  | nil => rfl
  | @name text h =>
    have chars : Token.chars [.name text] = text.toList ++ [] :=
      (List.flatMap_singleton _ _).trans (List.append_nil _).symm
    rw [chars, Token.scan_name h (by simp)]
    rfl
  | @between before after m _ _ ih ih₁ =>
    have single : (Token.mark m).text.toList = [m.char] := String.toList_ofList
    have chars : Token.chars (before ++ .mark m :: after) =
        Token.chars before ++ m.char :: Token.chars after := by
      rw [Token.chars, List.flatMap_append, List.flatMap_cons, single, List.singleton_append]
      rfl
    rw [chars, Token.scan_mark, ih, ih₁]

/-- **Tokens without neighbouring names are the tokens of their text.** -/
theorem tokensOf_join (h : Spaced tokens) :
    tokensOf (String.join (tokens.map Token.text)) = tokens := by
  rw [tokensOf, String.toList_join, List.flatMap_map]
  exact h.scan_chars

end Spaced

end GraphQuery
