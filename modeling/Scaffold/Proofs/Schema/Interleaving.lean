import Mathlib.Data.List.Induction
import Scaffold.Proofs.Schema.FieldText
import Scaffold.Proofs.Schema.IdentityText
import Scaffold.Proofs.Schema.Layout

/-!
The lines of a body do not interfere. The fields of a model come from the field declarations of its
body and its identity from the first text of one, each whatever stands between them; so bodies that
interleave the same declarations and identities in different ways give the same model, and a body
gives the same model without the lines that are reported (`Block.lines_apart`).

A body is read line by line. What one more line does is said once, for the model
(`Block.model_push`) and for what is reported (`Block.diagnostics_push`).
-/

namespace Scaffold.Schema

open Text

/-! ### Field declarations -/

/-- Whether a line is the text of a field declaration. -/
def IsFieldLine (line : List Char) : Prop :=
  ∃ written : FieldText, written.text = line

theorem Entry.isSome_field? (line : SourceLine) :
    (ofLine line).field?.isSome = true ↔ IsFieldLine line.text := by
  rw [Option.isSome_iff_exists]
  constructor
  · rintro ⟨field, hfield⟩
    obtain ⟨written, htext, -⟩ := FieldText.ofLine?_eq_some_iff.mp (ofLine?_of_field? hfield)
    exact ⟨written, htext⟩
  · rintro ⟨written, htext⟩
    have hread : Field.ofLine? line.text line.number = some (written.field line.number) :=
      FieldText.ofLine?_eq_some_iff.mpr ⟨written, htext, rfl⟩
    exact ⟨written.field line.number, by rw [ofLine_of_ofLine? hread]; rfl⟩

instance : DecidablePred IsFieldLine := fun line =>
  decidable_of_iff ((Entry.ofLine ⟨0, line⟩).field?.isSome = true)
    (Entry.isSome_field? ⟨0, line⟩)

namespace Block

variable (block : Block)

/-- The field declarations in the body of a block, in order. -/
def fieldLines : List (List Char) :=
  (block.body.map SourceLine.text).filter fun line => IsFieldLine line

/-- The fields of a model are what the field declarations of its body declare, in order. -/
theorem fields_model :
    block.model.fields.map some =
      (block.body.filter fun line => IsFieldLine line.text).map fun line =>
        Field.ofLine? line.text line.number := by
  change ((block.body.map Entry.ofLine).filterMap Entry.field?).map some = _
  induction block.body with
  | nil => rfl
  | cons line rest ih =>
    rw [List.map_cons]
    by_cases hline : IsFieldLine line.text
    · obtain ⟨field, hfield⟩ := Option.isSome_iff_exists.mp ((Entry.isSome_field? line).mpr hline)
      rw [List.filterMap_cons_some hfield, List.filter_cons_of_pos (by simpa using hline),
        List.map_cons, List.map_cons, ih, Entry.ofLine?_of_field? hfield]
    · have hnone : (Entry.ofLine line).field? = none :=
        Option.not_isSome_iff_eq_none.mp (mt (Entry.isSome_field? line).mp hline)
      rw [List.filterMap_cons_none hnone, List.filter_cons_of_neg (by simpa using hline), ih]

/-- Without their line numbers the fields of a model are a matter of the texts that declare them. -/
theorem unnumbered_fields_model :
    (block.model.renumber unnumbered).fields.map some =
      block.fieldLines.map fun line => Field.ofLine? line 0 := by
  have hread : ∀ line : SourceLine, (Field.ofLine? line.text line.number).map
      (Field.renumber unnumbered) = Field.ofLine? line.text 0 :=
    fun line => (Field.ofLine?_renumber unnumbered line.text line.number).symm
  have hfields := congrArg (List.map (Option.map (Field.renumber unnumbered))) block.fields_model
  rw [List.map_map, List.map_map] at hfields
  rw [Model.renumber, fieldLines, List.filter_map, List.map_map, List.map_map]
  exact hfields.trans (List.map_congr_left fun line _ => hread line)

/-- Blocks of the same field declarations and the same identities, in whatever order the ones stand
among the others, declare the same model. -/
theorem model_congr {first second : Block} (hname : first.name = second.name)
    (hfields : first.fieldLines = second.fieldLines)
    (hidentities : first.identityLines = second.identityLines) :
    first.model.renumber unnumbered = second.model.renumber unnumbered := by
  have hdeclared : (first.model.renumber unnumbered).fields =
      (second.model.renumber unnumbered).fields := by
    apply (List.map_inj_right fun _ _ heq => Option.some.inj heq).mp
    rw [unnumbered_fields_model, unnumbered_fields_model, hfields]
  have hidentity : first.model.compositeId = second.model.compositeId := by
    obtain ⟨hnone, hfound⟩ := first.compositeId_model
    obtain ⟨hnone', hfound'⟩ := second.compositeId_model
    cases hlines : second.identityLines with
    | nil => rw [hnone.mpr (hidentities.trans hlines), hnone'.mpr hlines]
    | cons line rest =>
      have hline : line ∈ second.identityLines := hlines ▸ List.mem_cons_self ..
      obtain ⟨written, rfl⟩ := of_decide_eq_true (List.mem_filter.mp hline).2
      rw [hfound written (by rw [hidentities, hlines]; rfl), hfound' written (by rw [hlines]; rfl)]
  calc first.model.renumber unnumbered
      = ⟨first.name, (first.model.renumber unnumbered).fields, first.model.compositeId⟩ := rfl
    _ = ⟨second.name, (second.model.renumber unnumbered).fields, second.model.compositeId⟩ := by
      rw [hname, hdeclared, hidentity]
    _ = second.model.renumber unnumbered := rfl

/-! ### One more line -/

/-- What is reported of a line behind the body of a block. -/
def report? (line : SourceLine) : Option Diagnostic :=
  ((Entry.ofLine line).problem? block.name block.model.compositeId.isSome).map fun problem =>
    ⟨line.number, problem, String.ofList line.text⟩

/-- One more line adds the field that it declares, and an identity if there is none. -/
theorem model_push (line : SourceLine) :
    (block.push line).model =
      { block.model with
        fields := block.model.fields ++ (Entry.ofLine line).field?.toList
        compositeId := block.model.compositeId.or (Entry.ofLine line).compositeId? } := by
  have hfield : [Entry.ofLine line].filterMap Entry.field? =
      (Entry.ofLine line).field?.toList := by
    cases hfield : (Entry.ofLine line).field? with
    | none => rw [List.filterMap_cons_none hfield]; rfl
    | some field => rw [List.filterMap_cons_some hfield]; rfl
  simp [model, push, List.findSome?_append, hfield]

end Block

theorem bodyDiagnostics_append (model : String) (identified : Bool)
    (first second : List SourceLine) :
    bodyDiagnostics model identified (first ++ second) =
      bodyDiagnostics model identified first ++ bodyDiagnostics model
        (identified || ((first.map Entry.ofLine).findSome? Entry.compositeId?).isSome) second := by
  induction first generalizing identified with
  | nil => simp [bodyDiagnostics]
  | cons line rest ih =>
    rw [List.cons_append, bodyDiagnostics, bodyDiagnostics, ih, List.map_cons,
      List.findSome?_cons]
    cases (Entry.ofLine line).compositeId? with
    | none => simp
    | some composite => simp

namespace Block

variable (block : Block)

/-- One more line is reported or not, and changes nothing of what is reported before it. -/
theorem diagnostics_push (line : SourceLine) :
    (block.push line).diagnostics = block.diagnostics ++ (block.report? line).toList := by
  change bodyDiagnostics block.name false (block.body ++ [line]) = _
  rw [bodyDiagnostics_append, bodyDiagnostics, bodyDiagnostics, List.append_nil, Bool.false_or]
  rfl

/-- A line that is reported adds nothing to the model. -/
theorem model_push_of_report {line : SourceLine} (h : (block.report? line).isSome = true) :
    (block.push line).model = block.model := by
  have hnone : (Entry.ofLine line).field? = none ∧
      block.model.compositeId.or (Entry.ofLine line).compositeId? = block.model.compositeId := by
    unfold report? at h
    rw [Option.isSome_map] at h
    cases hentry : Entry.ofLine line with
    | comment | «attribute» => simp [hentry, Entry.problem?] at h
    | declared field => simp [hentry, Entry.problem?] at h
    | unrecognized => simp [Entry.field?, Entry.compositeId?]
    | identity id? =>
      refine ⟨rfl, ?_⟩
      -- An identity is reported if there is one already, or if it has no list.
      cases hidentity : block.model.compositeId with
      | some composite => rfl
      | none =>
        cases id? with
        | none => rfl
        | some composite => simp [hentry, hidentity, Entry.problem?] at h
  rw [model_push, hnone.1, hnone.2]
  simp

/-! ### Without what is reported -/

/-- The block with the first lines of its body. -/
def upTo (count : Nat) : Block :=
  { block with body := block.body.take count }

/-- Whether the line at a position of the body is reported: the body up to it brings more to report
than the body before it. -/
def isReported (position : Nat) : Bool :=
  (block.upTo position).diagnostics.length < (block.upTo (position + 1)).diagnostics.length

/-- The block without the lines that are reported. -/
def settled : Block :=
  { block with
    body := (block.body.zipIdx.filter fun placed => !block.isReported placed.2).map Prod.fst }

theorem upTo_push (line : SourceLine) {count : Nat} (h : count ≤ block.body.length) :
    (block.push line).upTo count = block.upTo count := by
  simp only [upTo, push, List.take_append_of_le_length h]

theorem isReported_push (line : SourceLine) {position : Nat} (h : position < block.body.length) :
    (block.push line).isReported position = block.isReported position := by
  rw [isReported, isReported, upTo_push block line (Nat.le_of_lt h), upTo_push block line h]

theorem isReported_last (line : SourceLine) :
    (block.push line).isReported block.body.length = (block.report? line).isSome := by
  have hbefore : (block.push line).upTo block.body.length = block := by
    simp [upTo, push]
  have hafter : (block.push line).upTo (block.body.length + 1) = block.push line := by
    rw [upTo, List.take_of_length_le (by simp [push])]
  rw [isReported, hbefore, hafter, diagnostics_push, List.length_append]
  cases block.report? line with
  | none => simp
  | some diagnostic => simp

/-- One more line is kept unless it is reported. -/
theorem settled_push (line : SourceLine) :
    (block.push line).settled =
      if (block.report? line).isSome then block.settled else block.settled.push line := by
  have hbefore : (block.body.zipIdx.filter fun placed => !(block.push line).isReported placed.2) =
      block.body.zipIdx.filter fun placed => !block.isReported placed.2 := by
    refine List.filter_congr fun placed hmem => ?_
    rw [isReported_push block line (List.snd_lt_of_mem_zipIdx hmem)]
  have hbody : (block.push line).body.zipIdx =
      block.body.zipIdx ++ [(line, block.body.length)] := by
    simp [push, List.zipIdx_append]
  have hlast := block.isReported_last line
  rw [settled, hbody, List.filter_append, hbefore]
  by_cases hreport : (block.report? line).isSome = true
  · rw [hreport] at hlast
    rw [if_pos hreport, List.filter_cons_of_neg (by simp [hlast])]
    simp [settled, push]
  · rw [eq_false_of_ne_true hreport] at hlast
    rw [if_neg hreport, List.filter_cons_of_pos (by simp [hlast])]
    simp [settled, push]

/-- Without the lines that are reported a block declares the same model, and nothing is reported. -/
theorem model_settled : block.settled.model = block.model ∧ block.settled.diagnostics = [] := by
  obtain ⟨keyword, name, header, body⟩ := block
  induction body using List.reverseRecOn with
  | nil => exact ⟨rfl, rfl⟩
  | append_singleton body line ih =>
    have hpush : (⟨keyword, name, header, body ++ [line]⟩ : Block) =
        (⟨keyword, name, header, body⟩ : Block).push line := rfl
    obtain ⟨hmodel, hdiagnostics⟩ := ih
    rw [hpush, settled_push]
    by_cases hreport : ((⟨keyword, name, header, body⟩ : Block).report? line).isSome = true
    · rw [if_pos hreport, model_push_of_report _ hreport]
      exact ⟨hmodel, hdiagnostics⟩
    · rw [if_neg hreport]
      constructor
      · rw [model_push, model_push, hmodel]
      · have hnone : (settled ⟨keyword, name, header, body⟩).report? line = none := by
          rw [report?, hmodel]
          exact Option.not_isSome_iff_eq_none.mp hreport
        rw [diagnostics_push, hdiagnostics, hnone]
        rfl

/-! ### Identities behind the first -/

/-- An identity behind another one only adds the report that it is one too many. -/
theorem model_of_duplicate {before after : List SourceLine} {line : SourceLine}
    (hbody : block.body = before ++ line :: after) (hline : IsIdentityLine line.text)
    (hearlier : ∃ earlier ∈ before, IsIdentityLine earlier.text) :
    { block with body := before ++ after }.model = block.model ∧
      ∃ above below, { block with body := before ++ after }.diagnostics = above ++ below ∧
        block.diagnostics = above ++
          ⟨line.number, .duplicateIdentity block.name, String.ofList line.text⟩ :: below := by
  obtain ⟨written, htext⟩ := hline
  have hentry : Entry.ofLine line = .identity (some written.compositeId) := by
    have := written.ofLine_text line.number
    rwa [htext] at this
  have hfound : ((before.map Entry.ofLine).findSome? Entry.compositeId?).isSome = true := by
    obtain ⟨earlier, hmem, hidentity⟩ := hearlier
    rw [List.findSome?_isSome_iff]
    exact ⟨Entry.ofLine earlier, List.mem_map_of_mem hmem,
      (Entry.isSome_compositeId? earlier).mpr hidentity⟩
  obtain ⟨composite, hcomposite⟩ := Option.isSome_iff_exists.mp hfound
  constructor
  · unfold model
    simp [hbody, hentry, Entry.field?, List.filterMap_cons, List.findSome?_append, hcomposite]
  · refine ⟨bodyDiagnostics block.name false before, bodyDiagnostics block.name true after, ?_, ?_⟩
    · rw [diagnostics, bodyDiagnostics_append, hfound, Bool.or_true]
    · rw [diagnostics, hbody, bodyDiagnostics_append, hfound, Bool.or_true, bodyDiagnostics, hentry]
      rfl

/-- The lines of a body do not interfere. A model is a matter of the field declarations in its body
and of the first text of an identity, the list and the key of which it takes; an identity behind it
is reported and does nothing else; and without all that is reported the model is the same. -/
theorem lines_apart :
    (∀ other : Block, other.name = block.name → other.fieldLines = block.fieldLines →
      other.identityLines = block.identityLines →
        other.model.renumber unnumbered = block.model.renumber unnumbered) ∧
    (block.model.fields.map some =
      (block.body.filter fun line => IsFieldLine line.text).map fun line =>
        Field.ofLine? line.text line.number) ∧
    (block.model.compositeId = none ↔ block.identityLines = []) ∧
    (∀ written : IdentityText, written.text ∈ block.identityLines.head? →
      ∃ composite, block.model.compositeId = some composite ∧
        composite.fields = written.entries ∧ composite.key = keyName? written.arguments) ∧
    (∀ before line after, block.body = before ++ line :: after → IsIdentityLine line.text →
      (∃ earlier ∈ before, IsIdentityLine earlier.text) →
        { block with body := before ++ after }.model = block.model ∧
          ∃ above below, { block with body := before ++ after }.diagnostics = above ++ below ∧
            block.diagnostics = above ++
              ⟨line.number, .duplicateIdentity block.name, String.ofList line.text⟩ :: below) ∧
    block.settled.model = block.model ∧ block.settled.diagnostics = [] := by
  refine ⟨?_, block.fields_model, block.compositeId_model.1, ?_, ?_, block.model_settled⟩
  · intro other hname hfields hidentities
    exact model_congr hname hfields hidentities
  · intro written hwritten
    exact ⟨written.compositeId, block.compositeId_model.2 written hwritten, rfl, rfl⟩
  · intro before line after hbody hline hearlier
    exact block.model_of_duplicate hbody hline hearlier

end Block

/-- A block in which declarations and identities alternate with lines that are reported. -/
def seatBlock : Block where
  keyword := "model"
  name := "Seat"
  line := 1
  body :=
    [⟨2, "row Int".toList⟩, ⟨3, "@@id([row, no], name: \"at\")".toList⟩, ⟨4, "= oops".toList⟩,
      ⟨5, "no Int".toList⟩, ⟨6, "@@id([no])".toList⟩]

/-- The declarations and identities of `seatBlock`, the identities first and other lines between
them. -/
def sortedSeatBlock : Block where
  keyword := "model"
  name := "Seat"
  line := 1
  body :=
    [⟨2, "@@id()".toList⟩, ⟨3, "@@id([row, no], name: \"at\")".toList⟩,
      ⟨4, "// where one sits".toList⟩, ⟨5, "@@id([no])".toList⟩, ⟨6, "@@map(\"seats\")".toList⟩,
      ⟨7, "row Int".toList⟩, ⟨8, "no Int".toList⟩]

theorem lines_apart_seat :
    seatBlock.model.renumber unnumbered = sortedSeatBlock.model.renumber unnumbered ∧
      sortedSeatBlock.diagnostics.map Diagnostic.line = [2, 5] ∧
      { sortedSeatBlock with
        body := sortedSeatBlock.body.take 3 ++ sortedSeatBlock.body.drop 4 }.model =
          sortedSeatBlock.model ∧
      sortedSeatBlock.settled.model = sortedSeatBlock.model ∧
      sortedSeatBlock.settled.diagnostics = [] := by
  obtain ⟨hother, -, -, -, hduplicate, hmodel, hdiagnostics⟩ := sortedSeatBlock.lines_apart
  have hearlier : ∃ earlier ∈ sortedSeatBlock.body.take 3, IsIdentityLine earlier.text :=
    ⟨⟨3, "@@id([row, no], name: \"at\")".toList⟩, by decide, by decide⟩
  have hsame := hduplicate (sortedSeatBlock.body.take 3) ⟨5, "@@id([no])".toList⟩
    (sortedSeatBlock.body.drop 4) rfl (by decide) hearlier
  exact ⟨hother seatBlock rfl (by decide) (by decide), by decide, hsame.1, hmodel, hdiagnostics⟩

end Scaffold.Schema
