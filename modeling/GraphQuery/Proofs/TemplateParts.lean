import GraphQuery.Term.Template

/-!
# The parts of a template

A variable begins where the prefix `v:` is followed by a word character. A template is cut at the
first variable there is, whose name takes all the word characters that follow, and what comes after
the name is cut in the same way. So no text is empty or stands beside another one, no variable
begins in a text, and no name could go on. Of all lists of parts that give the template back, only
the one it is split into is like that.

Key definitions: `Template.Begins`, `Template.Finds`, `Template.Cuts`, `Template.Canonical`.
Key theorems: `Template.split_eq_iff_cuts`, `Template.Canonical.cuts`, `Template.split_eq_iff`.
-/

namespace GraphQuery

namespace Template

/-- A variable begins here: a word character stands behind the prefix. -/
def Begins (chars : List Char) : Prop :=
  ∃ c rest, chars = 'v' :: ':' :: c :: rest ∧ isWord c = true

/-- No variable begins in a text, not even one that goes on into the rest. -/
def Plain (text rest : List Char) : Prop :=
  ∀ tail, tail <:+ text → tail ≠ [] → ¬Begins (tail ++ rest)

/-- A name that takes all the word characters before the rest. -/
structure Longest (name rest : List Char) : Prop where
  ne_nil : name ≠ []
  word : ∀ c ∈ name, isWord c = true
  ends : ∀ c ∈ rest.head?, isWord c = false

/-- The first variable of a template, with the text before it and the rest after it. -/
structure Finds (chars before name rest : List Char) : Prop where
  whole : chars = before ++ 'v' :: ':' :: (name ++ rest)
  plain : Plain before ('v' :: ':' :: (name ++ rest))
  longest : Longest name rest

/-- The part that a text makes, if it is not empty. -/
def textPart : List Char → List Part
  | [] => []
  | text => [.text text]

/-- The parts that a template is cut into: at its first variable, and then what comes after that. -/
inductive Cuts : List Char → List Part → Prop where
  | last {text : List Char} : Plain text [] → Cuts text (textPart text)
  | found {chars before name rest : List Char} {parts : List Part} :
    Finds chars before name rest → Cuts rest parts →
    Cuts chars (textPart before ++ .variable name :: parts)

variable {chars text before name rest : List Char} {parts : List Part}

theorem textPart_of_ne_nil (some : text ≠ []) : textPart text = [.text text] := by
  cases text with
  | nil => exact absurd rfl some
  | cons c text => rfl

theorem literal_eq (run : List Char) : literal run = textPart run.reverse := by
  cases run with
  | nil => rfl
  | cons c run =>
    rw [textPart_of_ne_nil (by simp)]
    rfl

/-! ### The variables that are found -/

theorem plain_nil (rest : List Char) : Plain [] rest := by
  intro tail suffix some
  exact absurd (List.suffix_nil.1 suffix) some

theorem plain_cons_iff {c : Char} :
    Plain (c :: text) rest ↔ ¬Begins (c :: (text ++ rest)) ∧ Plain text rest := by
  constructor
  · intro plain
    exact ⟨plain _ List.suffix_rfl (List.cons_ne_nil _ _),
      fun tail suffix => plain tail (suffix.trans (List.suffix_cons c text))⟩
  · rintro ⟨first, plain⟩ tail suffix some
    rcases List.suffix_cons_iff.1 suffix with rfl | suffix
    · exact first
    · exact plain tail suffix some

/-- Where a variable begins, its name is the run of word characters behind the prefix. -/
theorem Begins.finds (h : Begins chars) : ∃ name rest, Finds chars [] name rest := by
  obtain ⟨c, others, whole, word⟩ := h
  have longest : Longest (c :: others.takeWhile isWord) (others.dropWhile isWord) := by
    refine ⟨List.cons_ne_nil _ _, ?_, fun d first => ?_⟩
    · rw [List.forall_mem_cons]
      exact ⟨word, List.all_eq_true.1 List.all_takeWhile⟩
    · have ends := List.head?_dropWhile_not isWord others
      rwa [Option.mem_def.1 first] at ends
  refine ⟨_, _, ?_, plain_nil _, longest⟩
  rw [whole, List.cons_append, List.takeWhile_append_dropWhile]
  rfl

/-- The first variable is still the first one behind a character that begins none. -/
theorem Finds.cons {c : Char} (h : Finds chars before name rest) (none : ¬Begins (c :: chars)) :
    Finds (c :: chars) (c :: before) name rest where
  whole := congrArg (List.cons c) h.whole
  plain := by
    rw [plain_cons_iff, ← h.whole]
    exact ⟨none, h.plain⟩
  longest := h.longest

/-- Every template is plain or has a first variable. -/
theorem plain_or_finds : ∀ chars : List Char,
    Plain chars [] ∨ ∃ before name rest, Finds chars before name rest
  | [] => .inl (plain_nil [])
  | c :: chars => by
    by_cases begins : Begins (c :: chars)
    · exact .inr ⟨[], begins.finds⟩
    · rcases plain_or_finds chars with plain | ⟨before, name, rest, found⟩
      · refine .inl (plain_cons_iff.2 ⟨?_, plain⟩)
        rwa [List.append_nil]
      · exact .inr ⟨c :: before, name, rest, found.cons begins⟩

theorem Finds.length_lt (h : Finds chars before name rest) : rest.length < chars.length := by
  have whole := congrArg List.length h.whole
  simp only [List.length_append, List.length_cons] at whole
  omega

/-- Every template can be cut. -/
theorem exists_cuts (chars : List Char) : ∃ parts, Cuts chars parts := by
  rcases plain_or_finds chars with plain | ⟨before, name, rest, found⟩
  · exact ⟨_, .last plain⟩
  · have := found.length_lt
    obtain ⟨parts, cut⟩ := exists_cuts rest
    exact ⟨_, .found found cut⟩
termination_by chars.length

/-! ### What the scan does -/

/-- A character that begins no variable joins the text. -/
theorem scan_text_cons {c : Char} (none : ¬Begins (c :: rest)) (run : List Char) :
    scan (.text run) (c :: rest) = scan (.text (c :: run)) rest := by
  by_cases prefixed : ∃ d others, c :: rest = 'v' :: ':' :: d :: others
  · -- The scan passes over a whole prefix that no word character follows.
    obtain ⟨d, others, whole⟩ := prefixed
    obtain ⟨rfl, rfl⟩ := List.cons.inj whole
    have other : ¬isWord d = true := fun word => none ⟨d, others, rfl, word⟩
    have colon : scan (.text ('v' :: run)) (':' :: d :: others) =
        scan (.text (':' :: 'v' :: run)) (d :: others) := by
      rw [scan]
      simp
    rw [colon, scan, if_neg other]
  · rw [scan]
    intro d others head tail
    exact prefixed ⟨d, others, by rw [head, tail]⟩

/-- A plain text is passed over. -/
theorem scan_plain : ∀ {text : List Char}, Plain text rest → ∀ run : List Char,
    scan (.text run) (text ++ rest) = scan (.text (text.reverse ++ run)) rest
  | [], _, _ => rfl
  | c :: text, plain, run => by
    obtain ⟨none, plain⟩ := plain_cons_iff.1 plain
    rw [List.cons_append, scan_text_cons none, scan_plain plain, List.reverse_cons,
      List.append_assoc, List.singleton_append]

/-- A name is read to its end. -/
theorem scan_name (ends : ∀ c ∈ rest.head?, isWord c = false) : ∀ {name : List Char},
    (∀ c ∈ name, isWord c = true) → ∀ run : List Char,
      scan (.name run) (name ++ rest) = .variable (run.reverse ++ name) :: scan (.text []) rest
  | [], _, run => by
    cases rest with
    | nil => simp [scan, Mode.finish, literal]
    | cons c rest =>
      have other : ¬isWord c = true := by simpa using ends c rfl
      rw [List.nil_append, List.append_nil]
      conv => lhs; rw [scan, if_neg other]
  | c :: name, word, run => by
    obtain ⟨first, others⟩ := List.forall_mem_cons.1 word
    rw [List.cons_append, scan, if_pos first, scan_name ends others, List.reverse_cons,
      List.append_assoc, List.singleton_append]

/-- The scan finds the first variable and goes on behind it. -/
theorem Finds.scan_eq (h : Finds chars before name rest) :
    scan (.text []) chars = textPart before ++ .variable name :: scan (.text []) rest := by
  obtain ⟨c, others, rfl⟩ := List.exists_cons_of_ne_nil h.longest.ne_nil
  obtain ⟨first, word⟩ := List.forall_mem_cons.1 h.longest.word
  rw [h.whole, scan_plain h.plain, List.cons_append, scan, if_pos first,
    scan_name h.longest.ends word, literal_eq, List.append_nil, List.reverse_reverse]
  rfl

/-- No template is cut in two ways: the scan finds the parts. -/
theorem Cuts.scan_eq (h : Cuts chars parts) : scan (.text []) chars = parts := by
  induction h with
  | @last text plain =>
    have passed := scan_plain plain []
    rw [List.append_nil, List.append_nil] at passed
    rw [passed, scan, Mode.finish, literal_eq, List.reverse_reverse]
  | found found _ ih => rw [found.scan_eq, ih]

/-- **The parts of a template are those that it is cut into**, at the variables that are found from
the left, one after the other. -/
theorem split_eq_iff_cuts {template : String} :
    split template = parts ↔ Cuts template.toList parts := by
  constructor
  · rintro rfl
    obtain ⟨parts, cut⟩ := exists_cuts template.toList
    rw [split, cut.scan_eq]
    exact cut
  · exact Cuts.scan_eq

/-! ### Canonical parts -/

/-- What a part is like before the parts after it: a text is not empty, stands beside no other text,
and no variable begins in it; a name goes on as long as it can. -/
def Part.Fits : Part → List Part → Prop
  | .text text, after => text ≠ [] ∧ (∀ other, after.head? ≠ some (.text other)) ∧
      Plain text (after.flatMap Part.chars)
  | .variable name, after => Longest name (after.flatMap Part.chars)

/-- Parts as a template is split into: each one fits. -/
def Canonical (parts : List Part) : Prop :=
  ∀ part after, part :: after <:+ parts → part.Fits after

theorem canonical_nil : Canonical [] := by
  intro part after suffix
  cases List.suffix_nil.1 suffix

theorem canonical_cons_iff {part : Part} :
    Canonical (part :: parts) ↔ part.Fits parts ∧ Canonical parts := by
  constructor
  · intro canonical
    exact ⟨canonical part parts List.suffix_rfl,
      fun next after suffix => canonical next after (suffix.trans (List.suffix_cons part parts))⟩
  · rintro ⟨fits, canonical⟩ next after suffix
    rcases List.suffix_cons_iff.1 suffix with same | suffix
    · obtain ⟨rfl, rfl⟩ := List.cons.inj same
      exact fits
    · exact canonical next after suffix

/-- A text that is cut off makes a part that fits, or none. -/
theorem Canonical.textPart_append (h : Canonical parts)
    (other : ∀ next, parts.head? ≠ some (.text next))
    (plain : Plain text (parts.flatMap Part.chars)) : Canonical (textPart text ++ parts) := by
  cases text with
  | nil => exact h
  | cons c text => exact canonical_cons_iff.2 ⟨⟨List.cons_ne_nil c text, other, plain⟩, h⟩

/-- What a template is cut into gives it back, as the scan that finds it does. -/
theorem Cuts.chars_eq (h : Cuts chars parts) : parts.flatMap Part.chars = chars := by
  rw [← h.scan_eq, chars_scan]
  rfl

/-- What a template is cut into is canonical. -/
theorem Cuts.canonical (h : Cuts chars parts) : Canonical parts := by
  induction h with
  | @last text plain =>
    have canonical := canonical_nil.textPart_append (by simp) plain
    rwa [List.append_nil] at canonical
  | @found chars before name rest parts found cut ih =>
    have fits : (Part.variable name).Fits parts := by
      rw [Part.Fits, cut.chars_eq]
      exact found.longest
    have plain : Plain before ((Part.variable name :: parts).flatMap Part.chars) := by
      rw [List.flatMap_cons, cut.chars_eq]
      exact found.plain
    exact (canonical_cons_iff.2 ⟨fits, ih⟩).textPart_append (by simp) plain

/-- Canonical parts are what the template they give is cut into. -/
theorem Canonical.cuts : ∀ {parts : List Part}, Canonical parts →
    Cuts (parts.flatMap Part.chars) parts
  | [], _ => .last (plain_nil [])
  | [.text text], h => by
    obtain ⟨⟨some, -, plain⟩, -⟩ := canonical_cons_iff.1 h
    have cut := Cuts.last plain
    rw [textPart_of_ne_nil some] at cut
    simpa [Part.chars] using cut
  | .text text :: .text text₁ :: _, h => absurd rfl ((canonical_cons_iff.1 h).1.2.1 text₁)
  | .text text :: .variable name :: after, h => by
    obtain ⟨⟨some, -, plain⟩, h⟩ := canonical_cons_iff.1 h
    obtain ⟨longest, h⟩ := canonical_cons_iff.1 h
    have cut := h.cuts.found ⟨rfl, plain, longest⟩
    rwa [textPart_of_ne_nil some] at cut
  | .variable name :: after, h => by
    obtain ⟨longest, h⟩ := canonical_cons_iff.1 h
    exact h.cuts.found ⟨rfl, plain_nil _, longest⟩

/-- **A template loses nothing when it is split, and there is one way to split it.** Its parts, each
written as it was, give the template back. They are texts that are not empty, have no other text
beside them and no variable in them, and variables whose names are runs of word characters, with no
word character behind them in the template. No other parts are like that. -/
theorem split_eq_iff (template : String) (parts : List Part) :
    split template = parts ↔ join parts = template ∧ Canonical parts := by
  constructor
  · rintro rfl
    have cut := split_eq_iff_cuts.1 (rfl : split template = _)
    exact ⟨join_split template, cut.canonical⟩
  · rintro ⟨rfl, canonical⟩
    rw [split_eq_iff_cuts, join, String.toList_ofList]
    exact canonical.cuts

/-- Only the first of two prefixes in a row begins a variable. -/
example : split "v:v:X, v: v:b" =
    [.variable ['v'], .text [':', 'X', ',', ' ', 'v', ':', ' '], .variable ['b']] := by
  cbv

end Template

end GraphQuery
