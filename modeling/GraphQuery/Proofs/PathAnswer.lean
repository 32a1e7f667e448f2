import GraphQuery.Command.Answer
import GraphQuery.Proofs.Hosting
import GraphQuery.Proofs.Rendering

/-!
# Patterns in answers

The path command answers a pattern alone or a query along it. A query is made exactly when the
pattern can be compiled, and holds the pattern as it is answered alone. Only its predicates may be
other ones: if that is asked for, each is looked up once in the names of the configuration and in
the standard names.

Key definitions: `Json.renamePredicates`, `Config.longName`, `PathRequest.alone`.
Key theorems: `Pattern.toJson_mapNames`, `Config.expand_vocabulary`, `PathRequest.answer_alone`.
-/

namespace GraphQuery

namespace Json

mutual

/-- Changes the names that stand under `predicate` in a value, at every depth, and nothing else. -/
def renamePredicates (f : String → String) : Json → Json
  | .arr items => .arr (renameItems f items)
  | .obj fields => .obj (renameFields f fields)
  | json => json

def renameItems (f : String → String) : List Json → List Json
  | [] => []
  | item :: rest => renamePredicates f item :: renameItems f rest

def renameFields (f : String → String) : List (String × Json) → List (String × Json)
  | [] => []
  | ("predicate", .str name) :: rest => ("predicate", .str (f name)) :: renameFields f rest
  | (key, value) :: rest => (key, renamePredicates f value) :: renameFields f rest

end

end Json

namespace Pattern

variable (f : String → String)

mutual

/-- **Renaming the steps of a pattern renames the predicates of its wire form.** -/
theorem toJson_mapNames : ∀ p : Pattern, (p.mapNames f).toJson = p.toJson.renamePredicates f
  | .forward name | .backward name => by
    simp [mapNames, toJson, Json.renamePredicates, Json.renameFields]
  | .anyStep => by simp [mapNames, toJson, Json.renamePredicates, Json.renameFields]
  | .sequence steps => by
    simp [mapNames, toJson, Json.renamePredicates, Json.renameFields, toJsonAll_mapNamesAll steps]
  | .choice branches => by
    simp [mapNames, toJson, Json.renamePredicates, Json.renameFields,
      toJsonAll_mapNamesAll branches]
  | .star inner | .plus inner => by
    simp [mapNames, toJson, Json.renamePredicates, Json.renameFields, toJson_mapNames inner]
  | .times inner low high => by
    simp [mapNames, toJson, Json.renamePredicates, Json.renameFields, toJson_mapNames inner, count,
      Json.int]

theorem toJsonAll_mapNamesAll : ∀ ps : List Pattern,
    toJsonAll (mapNamesAll f ps) = Json.renameItems f (toJsonAll ps)
  | [] => by simp [mapNamesAll, toJsonAll, Json.renameItems]
  | p :: ps => by
    rw [mapNamesAll, toJsonAll, toJsonAll, Json.renameItems, toJson_mapNames p,
      toJsonAll_mapNamesAll ps]

end

end Pattern

/-- What a name stands for with a configuration: what the configuration says, or else what the
standard vocabulary says if it is inherited, or else itself. -/
def Config.longName (c : Config) (name : String) : String :=
  ((c.names.find? name).or
    (if c.inheritsStandard then Vocabulary.standard.find? name else none)).getD name

theorem Config.expand_vocabulary (c : Config) (name : String) :
    c.vocabulary.expand name = c.longName name := by
  have found : c.vocabulary.find? name = (c.names.find? name).or
      ((if c.inheritsStandard then Vocabulary.standard else .empty).find? name) :=
    Dictionary.find?_insertAll name c.names.sorted _
  rw [Vocabulary.expand, found, longName]
  cases c.inheritsStandard <;> rfl

namespace Builder

/-- The pattern of a path as it is written, in the wire form. -/
theorem toJson_writtenPattern (c : Config) (pattern : Pattern) :
    (writtenPattern c.vocabulary c.expandsPaths pattern).toJson =
      if c.expandsPaths then pattern.toJson.renamePredicates c.longName else pattern.toJson := by
  have once : c.vocabulary.expand = c.longName := funext c.expand_vocabulary
  rw [writtenPattern, once]
  cases c.expandsPaths with
  | false => rfl
  | true => exact pattern.toJson_mapNames c.longName

/-- Strings and an optional one are always in order as the arguments of a path. -/
theorem exists_pathFields_str (vocabulary : Vocabulary) (subject object : String)
    (pattern : Pattern) (path : Option String) : ∃ fields,
      pathFields vocabulary (.str subject) pattern (.str object) (path.elim .null .str) =
        .ok fields ∧ ("pattern", pattern.toJson) ∈ fields := by
  cases path <;> exact ⟨_, rfl, by simp⟩

/-- What a path that is written first sends as its pattern. -/
theorem get?_pattern_of_path {b : Builder} (reachable : Reachable Initial b)
    (empty : b.isEmpty = true) (subject object : String) {text : String} {pattern : Pattern}
    (compiled : Pattern.compile text = .ok pattern) (path : Option String) : ∃ after,
      b.path (.str subject) text (.str object) (path.elim .null .str) = .ok after ∧
        after.wire.get? "pattern" =
          some (writtenPattern b.vocabulary b.expandsPaths pattern).toJson := by
  obtain ⟨fields, made, mem⟩ := exists_pathFields_str b.vocabulary subject object
    (writtenPattern b.vocabulary b.expandsPaths pattern) path
  have plain : PlainFields fields := pathFields_plain _ _ _ _ _ fields made
  have nodup : (fields.map Prod.fst).Nodup := pathFields_nodup _ _ _ _ _ fields made
  have simple : Operation.path.isSimple := rfl
  exact ⟨b.addNode .path fields, bind_eq_ok_iff.2 ⟨pattern, mapError_eq_ok_iff.2 compiled,
    bind_eq_ok_iff.2 ⟨fields, made, rfl⟩⟩, get?_wire_addNode reachable empty simple plain nodup mem⟩

end Builder

namespace PathRequest

/-- The request for the pattern alone. -/
def alone (r : PathRequest) : PathRequest := { r with subject := none, object := none }

/-- The answer is the pattern alone. -/
theorem answer_of_alone (r : PathRequest) (untokened : r.tokensOnly = false) : r.alone.answer =
    ((Pattern.compile r.pattern).mapError Error.path).map fun p => .pattern p.toJson := by
  rw [answer, if_neg (by simp [alone, untokened]), if_neg (by simp [alone, wantsQuery])]
  rfl

/-- **A query along a pattern agrees with the pattern alone.** Both fail with the same error, or the
query has the pattern with its predicates looked up once if that is asked for, and unchanged
otherwise. -/
theorem answer_alone (r : PathRequest) (untokened : r.tokensOnly = false)
    (wanted : r.wantsQuery = true) :
    (∃ e, r.alone.answer = .error e ∧ r.answer = .error e) ∨
      ∃ pattern query, r.alone.answer = .ok (.pattern pattern) ∧ r.answer = .ok (.query query) ∧
        query.get? "pattern" = some (if r.config.expandsPaths then
          pattern.renamePredicates r.config.longName else pattern) := by
  have query : r.answer = r.query.map .query := by
    rw [answer, if_neg (by simp [untokened]), if_pos wanted]
  rw [r.answer_of_alone untokened, query]
  cases compiled : Pattern.compile r.pattern with
  | error fault =>
    refine .inl ⟨.path fault, rfl, ?_⟩
    rw [PathRequest.query, Builder.path, compiled]
    rfl
  | ok pattern =>
    have reachable : Reachable Builder.Initial (Builder.ofConfig r.config) := .start (.ofConfig _)
    obtain ⟨after, ran, found⟩ := Builder.get?_pattern_of_path reachable rfl
      (r.subject.getD "v:Subject") (r.object.getD "v:Object") compiled r.path
    refine .inr ⟨pattern.toJson, after.wire, rfl, ?_, ?_⟩
    · rw [PathRequest.query, ran]
      rfl
    · rw [found]
      exact congrArg some (Builder.toJson_writtenPattern r.config pattern)

/-- A name stands for another one that stands for a third: each is looked up once. -/
theorem answer_alone_chain : ∃ r : PathRequest, r.pattern = "a,<b" ∧
    r.config = ⟨.ofList [("a", "b"), ("b", "c")], true, true⟩ ∧
    r.tokensOnly = false ∧ r.wantsQuery = true ∧
    ∃ query, r.answer = .ok (.query query) ∧ query.get? "pattern" = some (.obj
      [("@type", .str "PathSequence"), ("sequence", .arr [
        .obj [("@type", .str "PathPredicate"), ("predicate", .str "b")],
        .obj [("@type", .str "InversePathPredicate"), ("predicate", .str "c")]])]) := by
  have compiled : Pattern.compile "a,<b" = .ok (.sequence [.forward "a", .backward "b"]) := by
    have tokens : tokensOf "a,<b" = Pattern.tokens (.sequence [.forward "a", .backward "b"]) := by
      rfl
    have wellFormed : Pattern.WellFormed (.sequence [.forward "a", .backward "b"]) := by
      simp [Pattern.WellFormed, Pattern.WellFormedAll, Pattern.IsName, isNameChar, isWord,
        isAsciiWord]
    rw [Pattern.compile_eq_ok_iff, tokens]
    exact Pattern.sequenceOf_tokens wellFormed
  obtain ⟨r, text, config, untokened, wanted⟩ : ∃ r : PathRequest, r.pattern = "a,<b" ∧
    r.config = ⟨.ofList [("a", "b"), ("b", "c")], true, true⟩ ∧
    r.tokensOnly = false ∧ r.wantsQuery = true :=
      ⟨⟨"a,<b", false, some "doc:x", none, some "v:Edges", _⟩, rfl, rfl, rfl, rfl⟩
  have alone := r.answer_of_alone untokened
  rw [text, compiled] at alone
  refine ⟨r, text, config, untokened, wanted, ?_⟩
  rcases answer_alone r untokened wanted with ⟨e, failed, -⟩ | ⟨pattern, query, given, ran, found⟩
  · cases alone.symm.trans failed
  · cases alone.symm.trans given
    refine ⟨query, ran, found.trans ?_⟩
    have first : r.config.longName "a" = "b" := by
      rw [config]
      rfl
    have second : r.config.longName "b" = "c" := by
      rw [config]
      rfl
    have looks : r.config.expandsPaths = true := by rw [config]
    rw [if_pos looks, ← Pattern.toJson_mapNames]
    simp [Pattern.mapNames, Pattern.mapNamesAll, Pattern.toJson, Pattern.toJsonAll, first, second]

end PathRequest

end GraphQuery
