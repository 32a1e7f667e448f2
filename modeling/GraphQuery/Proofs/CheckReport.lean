import GraphQuery.Command.Answer
import GraphQuery.Proofs.OrderedText
import GraphQuery.Proofs.SentUpdates

/-!
# What a report says

A report on a query has two answers about its updates. The scan of the query looks where sub-queries
stand; the listing goes through the wire form, and there into every value. So the scan can find an
update that is lost on the way, and the listing can have one that stands in plain JSON. Otherwise
they agree.

Key theorems: `Report.exists_initial_of_ofInput`, `Report.hasUpdate_iff_updates`.
-/

namespace GraphQuery

/-- A text is read from its tokens. -/
theorem Json.ofText?_of_tokens {text : String} {tokens : List Token}
    (cut : tokens? text = some tokens) :
    ofText? text = (State.run (.value []) tokens).bind fun source =>
      if source.depth ≤ deepestNesting then source.json? else none := by
  rw [ofText?, Source.ofText?, cut, Option.bind_some]

namespace Report

theorem ofInput_of_read {text : String} {json : Json} (visible : isBlank text = false)
    (read : Json.ofText? text = some json) :
    ofInput (some text) = ((Builder.ofJson json).mapError .query).map ofBuilder := by
  have given : (some text).filter (fun text => !isBlank text) = some text := by
    rw [Option.filter_some_pos]
    rw [visible]
    rfl
  simp only [ofInput, given, read]

/-- A report that is made is about the builder of the value that was read. -/
theorem exists_builder_of_ofInput {input : Option String} {r : Report}
    (made : ofInput input = .ok r) : ∃ text json b, input = some text ∧
      Json.ofText? text = some json ∧ Builder.ofJson json = .ok b ∧ r = ofBuilder b := by
  unfold ofInput at made
  cases given : input.filter fun text => !isBlank text with
  | none =>
    rw [given] at made
    cases made
  | some text =>
    obtain ⟨same, -⟩ := Option.filter_eq_some_iff.1 given
    rw [given] at made
    cases read : Json.ofText? text with
    | none =>
      simp only [read] at made
      cases made
    | some json =>
      simp only [read] at made
      obtain ⟨b, found, rfl⟩ := map_eq_ok_iff.1 made
      exact ⟨text, json, b, same, read, mapError_eq_ok_iff.1 found, rfl⟩

/-- What is read is ordered, so a report is about a builder that can be reached. -/
theorem exists_initial_of_ofInput {input : Option String} {r : Report}
    (made : ofInput input = .ok r) : ∃ b, Builder.Initial b ∧ r = ofBuilder b := by
  obtain ⟨text, json, b, -, read, built, rfl⟩ := exists_builder_of_ofInput made
  exact ⟨b, .ofJson (Json.ordered_of_ofText? read) built, rfl⟩

/-- A report is about an object: the scan of the object and the listing of its wire form. -/
theorem exists_of_ofInput {input : Option String} {r : Report} (made : ofInput input = .ok r) :
    ∃ text fields, input = some text ∧ Json.ofText? text = some (.obj fields) ∧
      r.hasUpdate = GraphQuery.hasUpdate (.obj fields) ∧
      r.updates = updatesIn (Tree.ofFields fields).wire := by
  obtain ⟨text, json, b, given, read, built, rfl⟩ := exists_builder_of_ofInput made
  cases json with
  | obj fields =>
    obtain ⟨q, started, tree⟩ := Builder.ofJson_obj fields
    obtain rfl : q = b := Except.ok.inj (started.symm.trans built)
    refine ⟨text, fields, given, read, ?_, ?_⟩
    · rw [← Tree.hasUpdate_ofFields, ← tree]
      rfl
    · rw [← tree]
      rfl
  | _ => cases built

/-- **When a report agrees with itself.** The scan finds the updates that stand in the object as
sub-queries, and the listing has those anywhere in the wire form. So the scan finds one if there is
one in the list and those in the wire form stand as sub-queries, and one is listed if the scan finds
one and the object is sent as a whole. -/
theorem hasUpdate_iff_updates {input : Option String} {r : Report} (made : ofInput input = .ok r) :
    ∃ text fields, input = some text ∧ Json.ofText? text = some (.obj fields) ∧
      (r.hasUpdate = true ↔ ∃ part : Json, part.StandsIn (.obj fields) ∧ part.IsUpdate) ∧
      (r.updates ≠ [] ↔ ∃ part : Json, part.Within (Tree.ofFields fields).wire ∧ part.IsUpdate) ∧
      ((Tree.ofFields fields).Whole → r.hasUpdate = true → r.updates ≠ []) ∧
      ((∀ part : Json, part.Within (Tree.ofFields fields).wire → part.IsUpdate →
          part.StandsIn (Tree.ofFields fields).wire) →
        r.updates ≠ [] → r.hasUpdate = true) := by
  obtain ⟨text, fields, given, read, flag, list⟩ := exists_of_ofInput made
  have listed : r.updates ≠ [] ↔
      ∃ part : Json, part.Within (Tree.ofFields fields).wire ∧ part.IsUpdate := by
    rw [list]
    exact Json.updatesIn_ne_nil_iff
  have legible := Tree.legible_ofFields fields
  refine ⟨text, fields, given, read, ?_, listed, fun whole found => ?_, fun placed some => ?_⟩
  · rw [flag]
    exact Json.hasUpdate_iff_standsIn
  · obtain ⟨v, written, inside⟩ := whole.sent legible
    have wire : (Tree.ofFields fields).wire = v := by
      rw [Tree.wire, written, Option.getD_some]
    rw [flag, ← Tree.hasUpdate_ofFields] at found
    rw [listed, wire]
    exact inside found
  · obtain ⟨part, within, update⟩ := listed.1 some
    have sent : GraphQuery.hasUpdate (Tree.ofFields fields).wire = true :=
      Json.hasUpdate_iff_standsIn.2 ⟨part, placed part within update, update⟩
    rw [flag, ← Tree.hasUpdate_ofFields]
    exact legible.hasUpdate_of_hasUpdate_wire sent

/-- A deletion in a negation is found and listed. -/
theorem hasUpdate_iff_updates_negation : ∃ text r, ofInput (some text) = .ok r ∧
    Json.ofText? text = some (.obj [("@type", .str "Not"),
      ("query", .obj [("@type", .str "DeleteTriple")])]) ∧
    r.updates = ["DeleteTriple"] ∧ (r.hasUpdate = true ↔ r.updates ≠ []) := by
  obtain ⟨text, visible, cut⟩ : ∃ text, isBlank text = false ∧ Json.tokens? text =
      some [.openObject, .text (some "@type"), .colon, .text (some "Not"), .comma,
        .text (some "query"), .colon, .openObject, .text (some "@type"), .colon,
        .text (some "DeleteTriple"), .closeObject, .closeObject] :=
    ⟨"\x7b\"@type\": \"Not\", \"query\": \x7b\"@type\": \"DeleteTriple\"\x7d\x7d", by decide,
      by cbv⟩
  have read : Json.ofText? text = some (.obj [("@type", .str "Not"),
      ("query", .obj [("@type", .str "DeleteTriple")])]) := Json.ofText?_of_tokens cut
  have made : ofInput (some text) = .ok ⟨some "Not", true, ["DeleteTriple"]⟩ :=
    ofInput_of_read visible read
  refine ⟨text, _, made, read, rfl, ?_⟩
  obtain ⟨_, fields, given, read₁, -, -, listed, found⟩ := hasUpdate_iff_updates made
  obtain rfl := Option.some.inj given
  obtain rfl := Json.obj.inj (Option.some.inj (read.symm.trans read₁))
  refine ⟨listed ?whole, found ?placed⟩
  case whole =>
    have deletion : (Tree.node (some "DeleteTriple") []).Whole := by
      refine .node (fun c => ?_) (fun none => absurd none (Option.some_ne_none _))
        (List.forall_mem_nil _)
      cases c <;> decide
    show (Tree.node (some "Not") [("query", .query (.node (some "DeleteTriple") []))]).Whole
    refine .node (fun c => ?_) (fun none => absurd none (Option.some_ne_none _)) ?_
    · cases c <;> decide
    · intro field mem q inside
      obtain rfl := List.mem_singleton.1 mem
      obtain rfl := List.mem_singleton.1 inside
      exact deletion
  case placed =>
    intro part within update
    have noText : ∀ s, ¬part.Within (.str s) := by
      intro s inside
      rcases Json.within_iff.1 inside with rfl | ⟨_, mem, -⟩
      · cases update
      · cases mem
    change part.Within (.obj [("@type", .str "Not"),
      ("query", .obj [("@type", .str "DeleteTriple")])]) at within
    rcases Json.within_iff.1 within with rfl | ⟨value, mem, within⟩
    · exact .self
    rcases List.mem_pair.1 mem with rfl | rfl
    · exact absurd within (noText _)
    rcases Json.within_iff.1 within with rfl | ⟨value, mem, within⟩
    · exact .inner (.inl ⟨"query", .inl rfl, .tail _ (.head _)⟩) .self
    · obtain rfl := List.mem_singleton.1 mem
      exact absurd within (noText _)

/-- A deletion that is lost with the query around it is found, but not listed. -/
theorem updates_eq_nil_of_lost : ∃ text r,
    Json.ofText? text = some (.obj [("@type", .str "When"),
      ("consequent", .obj [("@type", .str "DeleteDocument")]), ("query", .obj [])]) ∧
    ofInput (some text) = .ok r ∧ r.hasUpdate = true ∧ r.updates = [] := by
  obtain ⟨text, visible, cut⟩ : ∃ text, isBlank text = false ∧ Json.tokens? text =
      some [.openObject, .text (some "@type"), .colon, .text (some "When"), .comma,
        .text (some "query"), .colon, .openObject, .closeObject, .comma,
        .text (some "consequent"), .colon, .openObject, .text (some "@type"), .colon,
        .text (some "DeleteDocument"), .closeObject, .closeObject] :=
    ⟨"\x7b\"@type\": \"When\", \"query\": \x7b\x7d, " ++
      "\"consequent\": \x7b\"@type\": \"DeleteDocument\"\x7d\x7d", by decide, by cbv⟩
  have read : Json.ofText? text = some (.obj [("@type", .str "When"),
      ("consequent", .obj [("@type", .str "DeleteDocument")]), ("query", .obj [])]) :=
    Json.ofText?_of_tokens cut
  exact ⟨text, _, read, ofInput_of_read visible read, rfl, rfl⟩

end Report

end GraphQuery
