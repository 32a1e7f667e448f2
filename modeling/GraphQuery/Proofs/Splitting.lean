import GraphQuery.Path.Reading

/-!
# Splitting tokens whose brackets match

Tokens whose brackets match are passed over as a whole: no separator inside of brackets splits them,
and the group that they stand in does not end among them. A part of a split is not split again, by
the same separator or by another one that does not split the tokens.

Key definitions: `Bracketed`, `Seamless`, `Unsplit`.
Key theorems: `Bracketed.seamless`, `Bracketed.splitGroup_append`, `unsplit_of_splitFrom`.
-/

namespace GraphQuery

def Token.isBracket : Token → Bool
  | .mark .openParen | .mark .closeParen | .mark .openBrace | .mark .closeBrace => true
  | _ => false

/-- Tokens whose brackets match. -/
inductive Bracketed : List Token → Prop where
  | nil : Bracketed []
  | token {token : Token} : token.isBracket = false → Bracketed [token]
  | paren {inner : List Token} : Bracketed inner → Bracketed (Pattern.parenthesized inner)
  | brace {inner : List Token} :
    Bracketed inner → Bracketed (.mark .openBrace :: inner ++ [.mark .closeBrace])
  | append {front back : List Token} : Bracketed front → Bracketed back → Bracketed (front ++ back)

/-- Only brackets change the depth. -/
theorem Depth.step_of_isBracket {token : Token} (h : token.isBracket = false) (depth : Depth) :
    depth.step token = some depth := by
  cases token with
  | name text => rfl
  | mark m => cases m <;> first | rfl | cases h

theorem Bracketed.cons {token : Token} {tokens : List Token} (h : token.isBracket = false)
    (rest : Bracketed tokens) : Bracketed (token :: tokens) :=
  (Bracketed.token h).append rest

/-! ### Splitting -/

/-- Puts tokens in front of the first part. -/
def prepend (tokens : List Token) (parts : List (List Token)) : List (List Token) :=
  tokens.foldr extendFirst parts

@[simp] theorem prepend_nil (parts : List (List Token)) : prepend [] parts = parts := rfl

@[simp] theorem prepend_cons (token : Token) (tokens : List Token) (parts : List (List Token)) :
    prepend (token :: tokens) parts = extendFirst token (prepend tokens parts) := rfl

theorem prepend_append (front back : List Token) (parts : List (List Token)) :
    prepend (front ++ back) parts = prepend front (prepend back parts) :=
  List.foldr_append

theorem prepend_part (part : List Token) (parts : List (List Token)) :
    ∀ tokens, prepend tokens (part :: parts) = (tokens ++ part) :: parts
  | [] => rfl
  | token :: tokens => by rw [prepend_cons, prepend_part part parts tokens]; rfl

/-- Tokens that a split passes over from a given depth, which is the depth after them too. -/
def Seamless (separator : Token) (depth : Depth) (tokens : List Token) : Prop :=
  ∀ rest, splitFrom separator depth (tokens ++ rest) =
    (splitFrom separator depth rest).map (prepend tokens)

variable {separator other token : Token} {depth : Depth} {tokens part : List Token}
  {parts : List (List Token)}

theorem splitFrom_cons_of_step {next : Depth} (h : ¬(depth = .outside ∧ token = separator))
    (step : depth.step token = some next) (rest : List Token) :
    splitFrom separator depth (token :: rest) =
      (splitFrom separator next rest).map (extendFirst token) := by
  rw [splitFrom, if_neg h, step]
  rfl

theorem seamless_nil : Seamless separator depth [] := by
  intro rest
  cases found : splitFrom separator depth rest <;> simp [found]

theorem Seamless.append {front back : List Token} (h : Seamless separator depth front)
    (h₁ : Seamless separator depth back) : Seamless separator depth (front ++ back) := by
  intro rest
  rw [List.append_assoc, h, h₁, Option.map_map]
  congr 1
  funext parts
  exact (prepend_append front back parts).symm

theorem seamless_token (h : token.isBracket = false)
    (keeps : depth ≠ .outside ∨ token ≠ separator) : Seamless separator depth [token] := by
  intro rest
  have here : ¬(depth = .outside ∧ token = separator) := by
    rintro ⟨outside, same⟩
    rcases keeps with inside | differs
    · exact inside outside
    · exact differs same
  exact splitFrom_cons_of_step here (Depth.step_of_isBracket h depth) rest

/-- Brackets keep what is seamless inside of them together. -/
theorem Seamless.enclosed {opening closing : Token} {inside : Depth}
    (h : Seamless separator inside tokens) (opens : depth.step opening = some inside)
    (closes : inside.step closing = some depth) (not_outside : inside ≠ .outside)
    (differs : opening ≠ separator) :
    Seamless separator depth (opening :: tokens ++ [closing]) := by
  intro rest
  have opened := splitFrom_cons_of_step (fun h => differs h.2) opens (tokens ++ closing :: rest)
  have closed : splitFrom separator inside (closing :: rest) =
      (splitFrom separator depth rest).map (extendFirst closing) :=
    splitFrom_cons_of_step (fun h => not_outside h.1) closes rest
  rw [List.cons_append, List.cons_append, List.append_assoc, List.singleton_append, opened, h,
    closed, Option.map_map, Option.map_map]
  congr 1
  funext parts
  rw [prepend_cons, prepend_append]
  rfl

theorem Seamless.paren (h : Seamless separator { depth with parens := depth.parens + 1 } tokens)
    (plain : separator.isBracket = false) :
    Seamless separator depth (Pattern.parenthesized tokens) := by
  have differs : Token.mark .openParen ≠ separator := by
    rintro rfl
    cases plain
  exact h.enclosed rfl rfl (by simp [Depth.outside]) differs

theorem Seamless.brace (h : Seamless separator { depth with braces := depth.braces + 1 } tokens)
    (plain : separator.isBracket = false) :
    Seamless separator depth (.mark .openBrace :: tokens ++ [.mark .closeBrace]) := by
  have differs : Token.mark .openBrace ≠ separator := by
    rintro rfl
    cases plain
  exact h.enclosed rfl rfl (by simp [Depth.outside]) differs

/-- **Inside of brackets nothing splits tokens whose brackets match.** -/
theorem Bracketed.seamless (h : Bracketed tokens) (plain : separator.isBracket = false) :
    ∀ depth : Depth, depth ≠ .outside → Seamless separator depth tokens := by
  induction h with
  | nil => exact fun _ _ => seamless_nil
  | token h => exact fun _ inside => seamless_token h (.inl inside)
  | paren _ ih => exact fun _ _ => (ih _ (by simp [Depth.outside])).paren plain
  | brace _ ih => exact fun _ _ => (ih _ (by simp [Depth.outside])).brace plain
  | append _ _ ih ih₁ => exact fun depth inside => (ih depth inside).append (ih₁ depth inside)

/-! ### Groups -/

theorem splitGroup_cons (opens : token ≠ .mark .openParen) (closes : token ≠ .mark .closeParen)
    (depth : Nat) (rest : List Token) : splitGroup depth (token :: rest) =
      (splitGroup depth rest).map fun (inner, after) => (token :: inner, after) := by
  rw [splitGroup]
  · exact closes
  · exact opens

theorem splitGroup_openParen (depth : Nat) (rest : List Token) :
    splitGroup depth (.mark .openParen :: rest) = (splitGroup (depth + 1) rest).map
      fun (inner, after) => (.mark .openParen :: inner, after) := rfl

theorem splitGroup_closeParen (depth : Nat) (rest : List Token) :
    splitGroup (depth + 1) (.mark .closeParen :: rest) = (splitGroup depth rest).map
      fun (inner, after) => (.mark .closeParen :: inner, after) := rfl

/-- **The group around tokens whose brackets match does not end among them.** -/
theorem Bracketed.splitGroup_append (h : Bracketed tokens) : ∀ (depth : Nat) (rest : List Token),
    splitGroup depth (tokens ++ rest) =
      (splitGroup depth rest).map fun (inner, after) => (tokens ++ inner, after) := by
  induction h with
  | nil =>
    intro depth rest
    cases found : splitGroup depth rest <;> simp [found]
  | @token token h =>
    intro depth rest
    have opens : token ≠ .mark .openParen := by
      rintro rfl
      cases h
    have closes : token ≠ .mark .closeParen := by
      rintro rfl
      cases h
    exact splitGroup_cons opens closes depth rest
  | @paren inner _ ih =>
    intro depth rest
    have enclosed : Pattern.parenthesized inner ++ rest =
        .mark .openParen :: (inner ++ .mark .closeParen :: rest) := by
      simp [Pattern.parenthesized]
    rw [enclosed, splitGroup_openParen, ih, splitGroup_closeParen]
    simp [Pattern.parenthesized, Function.comp_def]
  | @brace inner _ ih =>
    intro depth rest
    have enclosed : .mark .openBrace :: inner ++ [.mark .closeBrace] ++ rest =
        .mark .openBrace :: (inner ++ .mark .closeBrace :: rest) := by
      simp
    rw [enclosed, splitGroup_cons (by simp) (by simp), ih, splitGroup_cons (by simp) (by simp)]
    simp [Function.comp_def]
  | append _ _ ih ih₁ =>
    intro depth rest
    simp [ih, ih₁, Function.comp_def]

/-- A group whose brackets match ends at the first parenthesis after it. -/
theorem Bracketed.splitGroup_eq_some (h : Bracketed tokens) (rest : List Token) :
    splitGroup 0 (tokens ++ .mark .closeParen :: rest) = some (tokens, rest) := by
  rw [h.splitGroup_append]
  simp [splitGroup]

/-- A group with its parentheses and what follows them are all the tokens. -/
theorem cons_openParen_eq_of_splitGroup {inner after : List Token}
    (found : splitGroup 0 tokens = some (inner, after)) :
    .mark .openParen :: tokens = Pattern.parenthesized inner ++ after := by
  rw [splitGroup_eq found]
  simp [Pattern.parenthesized]

/-! ### Parts -/

/-- A split ends a part at its first token or goes on with it. -/
theorem splitFrom_cons_cases (h : splitFrom separator depth (token :: tokens) =
    some (part :: parts)) :
    (depth = .outside ∧ token = separator ∧ part = [] ∧ parts ≠ [] ∧
      splitFrom separator depth tokens = some parts) ∨
    (¬(depth = .outside ∧ token = separator) ∧ ∃ next first, depth.step token = some next ∧
      part = token :: first ∧ splitFrom separator next tokens = some (first :: parts)) := by
  rw [splitFrom] at h
  by_cases here : depth = .outside ∧ token = separator
  · rw [if_pos here] at h
    obtain ⟨others, found, same⟩ := Option.map_eq_some_iff.1 h
    cases same
    exact .inl ⟨here.1, here.2, rfl, splitFrom_ne_nil found, found⟩
  · rw [if_neg here] at h
    obtain ⟨next, step, h⟩ := Option.bind_eq_some_iff.1 h
    obtain ⟨others, found, same⟩ := Option.map_eq_some_iff.1 h
    cases others with
    | nil => exact absurd rfl (splitFrom_ne_nil found)
    | cons first others =>
      cases same
      exact .inr ⟨here, next, first, step, rfl, found⟩

/-- Tokens that are a single part from a given depth on. -/
def Unsplit (separator : Token) (depth : Depth) (tokens : List Token) : Prop :=
  splitFrom separator depth tokens = some [tokens]

theorem unsplit_nil : Unsplit separator depth [] := rfl

theorem unsplit_cons_iff : Unsplit separator depth (token :: tokens) ↔
    ¬(depth = .outside ∧ token = separator) ∧
      ∃ next, depth.step token = some next ∧ Unsplit separator next tokens := by
  constructor
  · intro h
    rcases splitFrom_cons_cases h with ⟨_, _, same, _⟩ | ⟨here, next, first, step, same, found⟩
    · cases same
    · cases same
      exact ⟨here, next, step, found⟩
  · rintro ⟨here, next, step, h⟩
    rw [Unsplit, splitFrom_cons_of_step here step, h]
    rfl

/-- What follows tokens that are passed over is a single part if all of them are. -/
theorem Unsplit.of_append (h : Unsplit separator depth (tokens ++ part))
    (seamless : Seamless separator depth tokens) : Unsplit separator depth part := by
  rw [Unsplit, seamless] at h
  obtain ⟨parts, found, same⟩ := Option.map_eq_some_iff.1 h
  cases parts with
  | nil => exact absurd rfl (splitFrom_ne_nil found)
  | cons first parts =>
    rw [prepend_part] at same
    obtain ⟨same_part, rfl⟩ := List.cons.inj same
    rw [List.append_cancel_left same_part] at found
    exact found

/-- **The parts of a split are not split again**, neither by its own separator nor by another one
that does not split the whole. -/
theorem unsplit_of_splitFrom (plain : separator.isBracket = false)
    (h : other = separator ∨ Unsplit other depth tokens)
    (found : splitFrom separator depth tokens = some (part :: parts)) :
    Unsplit other depth part ∧ ∀ part ∈ parts, Unsplit other .outside part := by
  induction tokens generalizing depth part parts with
  | nil =>
    cases found
    exact ⟨unsplit_nil, by simp⟩
  | cons token tokens ih =>
    rcases splitFrom_cons_cases found with
      ⟨rfl, rfl, rfl, ne, later⟩ | ⟨here, next, first, step, rfl, later⟩
    · have rest : other = token ∨ Unsplit other .outside tokens := by
        refine h.imp_right fun h => ?_
        obtain ⟨_, next, step, rest⟩ := unsplit_cons_iff.1 h
        rw [Depth.step_of_isBracket plain] at step
        cases step
        exact rest
      cases parts with
      | nil => contradiction
      | cons first others =>
        obtain ⟨unsplit, all⟩ := ih rest later
        exact ⟨unsplit_nil, List.forall_mem_cons.2 ⟨unsplit, all⟩⟩
    · have differs : ¬(depth = .outside ∧ token = other) := by
        rcases h with rfl | h
        · exact here
        · exact (unsplit_cons_iff.1 h).1
      have rest : other = separator ∨ Unsplit other next tokens := by
        refine h.imp_right fun h => ?_
        obtain ⟨_, next₁, step₁, rest⟩ := unsplit_cons_iff.1 h
        cases step.symm.trans step₁
        exact rest
      obtain ⟨unsplit, all⟩ := ih rest later
      exact ⟨unsplit_cons_iff.2 ⟨differs, next, step, unsplit⟩, all⟩

theorem unsplit_of_mem_splitTokens (plain : separator.isBracket = false)
    (h : other = separator ∨ Unsplit other .outside tokens)
    (found : splitTokens separator tokens = some parts) :
    ∀ part ∈ parts, Unsplit other .outside part := by
  cases parts with
  | nil => simp
  | cons part parts =>
    obtain ⟨unsplit, all⟩ := unsplit_of_splitFrom plain h found
    exact List.forall_mem_cons.2 ⟨unsplit, all⟩

end GraphQuery
