import GraphQuery.Proofs.Decomposition

/-!
# When brackets are reported as unbalanced

The tokens of a pattern are split before anything else is read, so a bracket that closes what is not
open is always reported. It is also reported for no other reason, although every group is split
again: a group is cut out by its parentheses alone, and bounds of a repetition are read as a whole,
so all braces before a group are closed where it begins. What closes too much inside of a group
would therefore close too much in the whole. Where a pattern is read, all its brackets match.

Key definitions: `Spares`, `Truthful`.
Key theorems: `Bracketed.level`, `not_overclosed_of_splitGroup`, `truthful_phraseWith`,
`truthful_sequenceTo`, `Pattern.compile_unbalanced_iff`.
-/

namespace GraphQuery

variable {α : Type} {tokens : List Token}

/-! ### Brackets that match -/

namespace Bracketed

/-- Tokens whose brackets match leave the depth as it is. -/
theorem after (h : Bracketed tokens) : ∀ depth : Depth, depth.after tokens = some depth := by
  induction h with
  | nil => exact fun _ => rfl
  | token plain => exact fun depth => Depth.after_cons (Depth.step_of_isBracket plain depth) []
  | @paren inner _ ih =>
    intro depth
    rw [Pattern.parenthesized, List.cons_append, Depth.after_cons rfl, Depth.after_append, ih]
    rfl
  | @brace inner _ ih =>
    intro depth
    rw [List.cons_append, Depth.after_cons rfl, Depth.after_append, ih]
    rfl
  | append _ _ ih ih₁ =>
    intro depth
    rw [Depth.after_append, ih, Option.bind_some, ih₁]

theorem level (h : Bracketed tokens) : Level tokens := (level_iff (h.after .outside)).2 rfl

theorem not_overclosed (h : Bracketed tokens) : ¬Overclosed tokens :=
  not_overclosed_iff.2 ⟨_, h.after .outside⟩

/-- What follows tokens whose brackets match is counted from the start. -/
theorem not_overclosed_rest {front back : List Token} (h : Bracketed front)
    (closed : ¬Overclosed (front ++ back)) : ¬Overclosed back := by
  rw [overclosed_iff, Depth.after_append, h.after, Option.bind_some, ← overclosed_iff] at closed
  exact closed

end Bracketed

/-! ### Groups -/

/-- No prefix of a group closes more parentheses than are open. -/
theorem count_le_of_splitGroup {depth : Nat} {inner after : List Token}
    (found : splitGroup depth tokens = some (inner, after)) : ∀ front, front <+: inner →
      front.count (.mark .closeParen) ≤ depth + front.count (.mark .openParen) := by
  fun_induction splitGroup depth tokens generalizing inner after with
  | case1 => cases found
  | case2 =>
    cases found
    intro front begins
    rw [List.prefix_nil.1 begins]
    simp
  | case3 rest depth ih | case4 depth rest ih =>
    obtain ⟨⟨inner, after⟩, later, same⟩ := Option.map_eq_some_iff.1 found
    cases same
    intro front begins
    rcases List.prefix_cons_iff.1 begins with rfl | ⟨front, rfl, goes_on⟩
    · simp
    · have others := ih later front goes_on
      simp
      omega
  | case5 depth token rest no_close no_open ih =>
    obtain ⟨⟨inner, after⟩, later, same⟩ := Option.map_eq_some_iff.1 found
    cases same
    intro front begins
    rcases List.prefix_cons_iff.1 begins with rfl | ⟨front, rfl, goes_on⟩
    · simp
    · rw [List.count_cons_of_ne no_close, List.count_cons_of_ne no_open]
      exact ih later front goes_on

/-- A group closes no more than the tokens that it is cut out of. -/
theorem not_overclosed_of_splitGroup {inner after : List Token}
    (found : splitGroup 0 tokens = some (inner, after))
    (closed : ¬Overclosed (.mark .openParen :: tokens)) : ¬Overclosed inner := by
  rintro ⟨front, begins, excess | excess⟩
  · have enough := count_le_of_splitGroup found front begins
    omega
  · refine closed ⟨.mark .openParen :: front, ?_, .inr (by simpa using excess)⟩
    rw [splitGroup_eq found]
    exact List.cons_prefix_cons.2 ⟨rfl, begins.trans (List.prefix_append _ _)⟩

/-! ### Readings that report something else -/

/-- A computation that does not report unbalanced brackets. -/
def Spares (x : Except PathError α) : Prop := FailsOnly (fun e => e.fault ≠ .unbalanced) x

/-- A reading that reports unbalanced brackets for overclosed tokens only. -/
def Truthful (read : List Token → Except PathError Pattern) : Prop :=
  ∀ tokens, ¬Overclosed tokens → Spares (read tokens)

theorem repeated_ne_unbalanced {m : Mark} {read : Option Pattern} :
    repeated m read ≠ .error .unbalanced := by
  cases read <;> simp [repeated]

theorem readBound_ne_unbalanced {found : Option Token} :
    readBound found ≠ .error .unbalanced := by
  unfold readBound
  cases found.bind Token.count? <;> simp

theorem readBounds_ne_unbalanced : readBounds tokens ≠ .error .unbalanced := by
  unfold readBounds
  by_cases comma : tokens[1]? = some (.mark .comma) <;>
    by_cases brace : tokens[3]? = some (.mark .closeBrace) <;>
      simp [bind_eq_error_iff, readBound_ne_unbalanced, comma, brace, pure, Except.pure, throw,
        throwThe, MonadExceptOf.throw]

variable {group : List Token → Except PathError Pattern} {fail : PathFault → PathError}
  {read : Option Pattern}

/-- What is no fault of brackets is none when an error is made of it. -/
theorem spares_mapError (faults : ∀ fault, (fail fault).fault = fault) {x : Except PathFault α}
    (h : x ≠ .error .unbalanced) : Spares (x.mapError fail) := by
  refine .mapError fun fault failed => ?_
  show (fail fault).fault ≠ .unbalanced
  rw [faults]
  rintro rfl
  exact h failed

theorem spares_noSteps (faults : ∀ fault, (fail fault).fault = fault) (read : Option Pattern) :
    Spares (read.elim (.error (fail .noSteps)) .ok : Except PathError Pattern) := by
  cases read with
  | none => exact .error (by simp [faults])
  | some p => exact .ok

/-- **A phrase reports unbalanced brackets only if it is overclosed**, when its groups do so. -/
theorem spares_phraseFrom (truthful : Truthful group)
    (sound : ∀ inner p, group inner = .ok p → Bracketed inner)
    (faults : ∀ fault, (fail fault).fault = fault) (closed : ¬Overclosed tokens) :
    Spares (phraseFrom group fail read tokens) := by
  fun_induction phraseFrom group fail read tokens with
  | case1 read => exact spares_noSteps faults read
  | case2 read text rest ih => exact ih ((Bracketed.token rfl).not_overclosed_rest closed)
  | case3 read rest ih | case6 read rest ih | case13 read rest ih | case14 read rest ih =>
    exact ih ((Bracketed.token rfl).not_overclosed_rest closed)
  | case4 read text rest ih =>
    have item : Bracketed [.mark .less, .name text] := .cons rfl (.token rfl)
    exact ih (item.not_overclosed_rest closed)
  | case5 | case10 => exact .error (by simp [faults])
  | case7 read rest ih | case8 read rest ih =>
    refine (spares_mapError faults repeated_ne_unbalanced).bind fun p _ => ?_
    exact ih p ((Bracketed.token rfl).not_overclosed_rest closed)
  | case9 read rest ih =>
    refine (spares_mapError faults repeated_ne_unbalanced).bind fun p _ => ?_
    refine (spares_mapError faults readBounds_ne_unbalanced).bind fun pair bounds => ?_
    obtain ⟨m, k⟩ := pair
    obtain ⟨low, high, rest, rfl, count, count₁⟩ :=
      readBounds_eq_ok_iff.1 (mapError_eq_ok_iff.1 bounds)
    exact ih p m k ((bracketed_bounds count count₁).brace.not_overclosed_rest closed)
  | case11 read rest inner after found ih =>
    refine (truthful inner (not_overclosed_of_splitGroup found closed)).bind fun p read_inner => ?_
    -- A group that was read has matching brackets, so the count goes on as before it.
    have item := (sound inner p read_inner).paren
    rw [cons_openParen_eq_of_splitGroup found] at closed
    exact ih p (item.not_overclosed_rest closed)
  | case12 read rest => exact spares_noSteps faults read
  | case15 read rest ih =>
    -- A closing brace is never read in the place of an item.
    exact absurd ⟨[.mark .closeBrace], by simp, .inr (by simp)⟩ closed

/-- Both levels above phrases split their tokens, and no part closes what the whole does not. -/
theorem truthful_parts {separator : Token} (plain : separator.isBracket = false)
    {readPart : List Token → Except PathError Pattern} (truthful : Truthful readPart)
    (combine : List Pattern → Pattern) :
    Truthful fun tokens => do
      let parts ← partsOf separator tokens
      let ps ← parts.mapM readPart
      return combine ps := by
  intro tokens closed
  refine FailsOnly.bind ?_ fun parts found => ?_
  · intro e failed
    exact absurd ((partsOf_eq_error_iff plain).1 failed).1 closed
  · have found := partsOf_eq_ok_iff.1 found
    refine FailsOnly.bind (.mapM fun part mem => truthful part ?_) fun ps _ => .ok
    exact (unsplit_outside_iff.1 (unsplit_of_mem_splitTokens plain (.inl rfl) found part mem)).1

theorem truthful_phraseWith (truthful : Truthful group)
    (sound : ∀ inner p, group inner = .ok p → Bracketed inner) : Truthful (phraseWith group) :=
  fun _ closed => spares_phraseFrom truthful sound (fun _ => rfl) closed

theorem truthful_sequenceWith (truthful : Truthful group)
    (sound : ∀ inner p, group inner = .ok p → Bracketed inner) : Truthful (sequenceWith group) := by
  have choices : Truthful (choiceWith group) :=
    truthful_parts rfl (truthful_phraseWith truthful sound) .ofChoice
  exact truthful_parts rfl choices .ofSequence

/-- Groups at any depth report unbalanced brackets only where they are overclosed themselves. -/
theorem truthful_sequenceTo (depth : Nat) : Truthful (sequenceTo depth) := by
  induction depth with
  | zero => exact fun tokens _ => .error (by simp [PathError.ofTokens])
  | succ depth ih =>
    have sound : ∀ inner p, sequenceTo depth inner = .ok p → Bracketed inner :=
      fun inner p read => (SequenceOf.of_sequenceTo depth inner p read).bracketed
    exact truthful_sequenceWith ih sound

/-- Overclosed tokens are not even split. -/
theorem sequenceTo_of_overclosed (excess : Overclosed tokens) (depth : Nat) :
    sequenceTo (depth + 1) tokens = .error (.ofTokens tokens .unbalanced) := by
  have failed : partsOf (.mark .comma) tokens = .error (.ofTokens tokens .unbalanced) :=
    (partsOf_eq_error_iff rfl).2 ⟨excess, rfl⟩
  rw [sequenceTo, sequenceWith, failed]
  rfl

/-! ### The report -/

/-- No other fault has the message of unbalanced brackets. -/
theorem PathFault.message_eq_iff {fault : PathFault} :
    fault.message = "Unbalanced parenthesis" ↔ fault = .unbalanced := by
  constructor
  · intro same
    unfold message at same
    cases fault with
    | unbalanced => rfl
    | nothingToRepeat m | noCount found =>
      have chars := congrArg String.toList same
      simp at chars
    | _ => simp at same
  · rintro rfl
    rfl

namespace Pattern

/-- A text without tokens has no pattern. -/
theorem compile_of_no_tokens {text : String} (none : tokensOf text = []) :
    compile text = .error ⟨text, .noTokens⟩ := by
  unfold compile
  rw [if_pos (List.isEmpty_iff.2 none)]

/-- Errors show the whole text, with the fault that reading its tokens has. -/
theorem compile_eq_error_iff {text : String} {e : PathError} (some_token : tokensOf text ≠ []) :
    compile text = .error e ↔
      ∃ inner, ofSequenceTokens (tokensOf text) = .error inner ∧ ⟨text, inner.fault⟩ = e := by
  unfold compile
  rw [if_neg (by simpa using some_token)]
  exact mapError_eq_error_iff

/-- **Unbalanced brackets are reported exactly if some prefix of the tokens closes more brackets of
a kind than it opens**, and a pattern that is read closes as many of each kind as it opens. -/
theorem compile_unbalanced_iff (text : String) :
    ((∃ e, compile text = .error e ∧ e.fault.message = "Unbalanced parenthesis") ↔
      Overclosed (tokensOf text)) ∧
    ∀ p, compile text = .ok p → Level (tokensOf text) := by
  refine ⟨?_, fun p read => ((compile_eq_ok_iff text p).1 read).bracketed.level⟩
  simp only [PathFault.message_eq_iff]
  by_cases no_token : tokensOf text = []
  · rw [compile_of_no_tokens no_token, no_token]
    refine iff_of_false ?_ Bracketed.nil.not_overclosed
    rintro ⟨e, same, unbalanced⟩
    cases same
    cases unbalanced
  · constructor
    · rintro ⟨e, failed, unbalanced⟩
      obtain ⟨inner, read, rfl⟩ := (compile_eq_error_iff no_token).1 failed
      by_contra closed
      exact truthful_sequenceTo _ _ closed inner read unbalanced
    · intro excess
      have read := sequenceTo_of_overclosed excess (tokensOf text).length
      exact ⟨_, (compile_eq_error_iff no_token).2 ⟨_, read, rfl⟩, rfl⟩

end Pattern

end GraphQuery
