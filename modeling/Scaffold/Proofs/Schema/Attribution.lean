import Mathlib.Data.List.Flatten
import Mathlib.Data.List.Induction
import Mathlib.Data.List.Nodup
import Scaffold.Proofs.Schema.BodyLine
import Scaffold.Proofs.Schema.ModelHeader

/-!
What the lines of a source are read as. Fields and diagnostics name the lines that they come from,
and no line is named twice: every line is taken up by one block or reported once (`walk_numbers`),
and a line of a body is read as one field or reported once (`count_lines_le`). So the fields of a
document stand in the order of their lines, and whatever is declared in a model is found under its
line, or the diagnostic is (`lines_attributed`).
-/

namespace Scaffold.Schema

open Text
open scoped List

/-! ### Numbers that are taken up -/

/-- The numbers of the lines in the body of a block. -/
def Block.numbers (block : Block) : List Nat :=
  block.body.map SourceLine.number

/-- The numbers of the lines that a finding takes up: those in the body of a block, or the line of
a problem. -/
def Finding.numbers : Finding → List Nat
  | .complete block => block.numbers
  | .problem diagnostic => [diagnostic.line]

/-- The numbers of the lines that an open block holds so far. -/
def heldNumbers (openBlock : Option Block) : List Nat :=
  openBlock.toList.flatMap Block.numbers

theorem Block.numbers_keep (block : Block) (line : SourceLine) :
    (block.keep line).numbers <+ block.numbers ++ [line.number] := by
  unfold keep
  split
  · exact List.sublist_append_left ..
  · simp [numbers, push]

/-- A line in an open block is held or completes the block with it. -/
theorem step_some_numbers (block : Block) (line : SourceLine) :
    (step (some block) line).2.toList.flatMap Finding.numbers ++
        heldNumbers (step (some block) line).1 <+ block.numbers ++ [line.number] := by
  have hkept := block.numbers_keep line.kept
  rw [SourceLine.number_kept] at hkept
  rw [step_some_eq]
  split
  · simpa [heldNumbers, Finding.numbers] using hkept
  · simpa [heldNumbers] using hkept

/-- A line takes up no number but its own and those that are held. -/
theorem step_numbers (openBlock : Option Block) (line : SourceLine) :
    (step openBlock line).2.toList.flatMap Finding.numbers ++ heldNumbers (step openBlock line).1
      <+ heldNumbers openBlock ++ [line.number] := by
  cases openBlock with
  | some block => simpa [heldNumbers] using step_some_numbers block line
  | none =>
    cases hheader : header? line with
    | some opened =>
      obtain ⟨block, rest⟩ := opened
      have hstep : step none line = step (some block) ⟨line.number, trim rest⟩ :=
        step_of_header? hheader
      have hempty : block.numbers = [] := by
        obtain ⟨_, _, _, _, _, _, _, rfl⟩ := eq_of_header? hheader
        rfl
      have hnumbers := step_some_numbers block ⟨line.number, trim rest⟩
      rw [hempty] at hnumbers
      rw [hstep]
      exact hnumbers
    | none =>
      unfold step
      simp only [hheader]
      split
      · exact List.nil_sublist _
      · exact List.Sublist.refl _

/-- The lines of a source are taken up in their order, each at most once. -/
theorem walk_numbers (openBlock : Option Block) (content : List SourceLine) :
    (walk openBlock content).2.flatMap Finding.numbers ++ heldNumbers (walk openBlock content).1
      <+ heldNumbers openBlock ++ content.map SourceLine.number := by
  induction content generalizing openBlock with
  | nil => simp [walk]
  | cons line rest ih =>
    have hhere := step_numbers openBlock line
    have hlater := ih (step openBlock line).1
    have hboth := (hlater.append_left _).trans
      ((List.append_assoc ..).symm ▸ hhere.append_right (rest.map SourceLine.number))
    simpa [walk, List.flatMap_append, List.append_assoc] using hboth

/-- The block that is open behind some lines was opened by one of them, outside of every block, and
nothing has been found since. -/
theorem exists_header_of_open {content : List SourceLine} {block : Block}
    (h : (walk none content).1 = some block) :
    ∃ above header below, content = above ++ header :: below ∧ block.line = header.number ∧
      (walk none above).1 = none ∧ (walk none content).2 = (walk none above).2 := by
  -- Whatever the last line is, it leaves a block open: its own, or the one before it.
  induction content using List.reverseRecOn generalizing block with
  | nil => cases h
  | append_singleton front line ih =>
    have hwalk : walk none (front ++ [line]) =
        ((step (walk none front).1 line).1,
          (walk none front).2 ++ (step (walk none front).1 line).2.toList) := by
      simp [walk_append, walk]
    rw [hwalk] at h ⊢
    cases hfront : (walk none front).1 with
    | some before =>
      rw [hfront] at h
      obtain ⟨above, header, below, hcontent, hline, hnone, hfindings⟩ := ih hfront
      rw [step_some_eq] at h ⊢
      split at h
      · cases h
      next hopen =>
        obtain rfl := Option.some.inj h
        refine ⟨above, header, below ++ [line], by simp [hcontent], ?_, hnone, ?_⟩
        · rw [← hline, (before.continues_keep line.kept).line]
        · rw [if_neg hopen]
          simp [hfindings]
    | none =>
      rw [hfront] at h
      obtain ⟨opened, rest, hheader, _⟩ := isSome_step_none.mp (by rw [h]; rfl)
      have hstep : step none line = step (some opened) ⟨line.number, trim rest⟩ :=
        step_of_header? hheader
      rw [hstep, step_some_eq] at h ⊢
      split at h
      · cases h
      next hopen =>
        obtain rfl := Option.some.inj h
        refine ⟨front, line, [], rfl, ?_, hfront, ?_⟩
        · rw [(opened.continues_keep _).line]
          obtain ⟨_, _, _, _, _, _, _, rfl⟩ := eq_of_header? hheader
          rfl
        · rw [if_neg hopen]
          simp

/-- The numbers that a scan of some lines names: those of its findings, and the header of the block
that is left open. -/
def namedNumbers (content : List SourceLine) : List Nat :=
  (walk none content).2.flatMap Finding.numbers ++
    ((walk none content).1.map Block.line).toList

theorem namedNumbers_sublist (content : List SourceLine) :
    namedNumbers content <+ content.map SourceLine.number := by
  unfold namedNumbers
  cases hopen : (walk none content).1 with
  | none =>
    have hwalk := walk_numbers none content
    rw [hopen] at hwalk
    simpa [heldNumbers] using hwalk
  | some block =>
    obtain ⟨above, header, below, hcontent, hline, hnone, hfindings⟩ :=
      exists_header_of_open hopen
    have habove := walk_numbers none above
    rw [hnone] at habove
    simp only [heldNumbers, Option.toList_none, List.flatMap_nil, List.append_nil,
      List.nil_append] at habove
    have hnamed : [block.line] <+ (header :: below).map SourceLine.number := by
      simp [hline]
    rw [hfindings, hcontent, List.map_append]
    simpa using habove.append hnamed

theorem map_number_numbered (start : Nat) (content : List (List Char)) :
    (numbered start content).map SourceLine.number = List.range' start content.length := by
  induction content generalizing start with
  | nil => rfl
  | cons line rest ih =>
    rw [numbered_cons, List.map_cons, ih, List.length_cons, List.range'_succ]

theorem namedNumbers_increasing (source : List Char) :
    (namedNumbers (sourceLines source)).Pairwise (· < ·) := by
  have hsub := namedNumbers_sublist (sourceLines source)
  rw [sourceLines_eq_numbered, map_number_numbered] at hsub
  exact List.Pairwise.sublist hsub List.pairwise_lt_range'

/-! ### Fields and diagnostics -/

/-- The fields of all models, model by model. -/
def Document.fields (document : Document) : List Field :=
  document.models.flatMap Model.fields

/-- The fields of the model that a finding completes. -/
def Finding.fields : Finding → List Field
  | .complete block => if block.isModel then block.model.fields else []
  | .problem _ => []

/-- The diagnostics that a finding leads to. -/
def Finding.reports : Finding → List Diagnostic
  | .complete block => if block.isModel then block.diagnostics else []
  | .problem diagnostic => [diagnostic]

theorem Document.fields_ofScan (scan : Scan) :
    (ofScan scan).fields = (scan.blocks.filter Block.isModel).flatMap fun block =>
      block.model.fields := by
  simp [fields, ofScan, List.flatMap_map]

/-- The fields of a document, found one after the other. -/
theorem Document.fields_ofLines (content : List SourceLine) :
    (ofScan (Scan.ofLines content)).fields = (walk none content).2.flatMap Finding.fields := by
  have hfindings : ∀ findings : List Finding,
      ((findings.filterMap Finding.block?).filter Block.isModel).flatMap
        (fun block => block.model.fields) = findings.flatMap Finding.fields := by
    intro findings
    induction findings with
    | nil => rfl
    | cons finding rest ih =>
      cases finding with
      | problem diagnostic => simpa [List.filterMap_cons, Finding.block?, Finding.fields] using ih
      | complete block =>
        cases hmodel : block.isModel with
        | true => simpa [Finding.block?, Finding.fields, hmodel] using ih
        | false => simpa [Finding.block?, Finding.fields, hmodel] using ih
  rw [fields_ofScan]
  exact hfindings (walk none content).2

/-- The diagnostics of a document, found one after the other, but for their order. -/
theorem Document.diagnostics_ofLines (content : List SourceLine) :
    (ofScan (Scan.ofLines content)).diagnostics.Perm
      ((walk none content).2.flatMap Finding.reports ++
        ((walk none content).1.map Block.unclosed).toList) := by
  have hfindings : ∀ findings : List Finding,
      (findings.filterMap Finding.diagnostic? ++
        ((findings.filterMap Finding.block?).filter Block.isModel).flatMap Block.diagnostics).Perm
          (findings.flatMap Finding.reports) := by
    intro findings
    induction findings with
    | nil => exact List.Perm.refl _
    | cons finding rest ih =>
      cases finding with
      | problem diagnostic =>
        simpa [List.filterMap_cons, Finding.block?, Finding.diagnostic?, Finding.reports] using ih
      | complete block =>
        cases hmodel : block.isModel with
        | false =>
          simpa [List.filterMap_cons, Finding.block?, Finding.diagnostic?, Finding.reports, hmodel]
            using ih
        | true =>
          simp only [List.filterMap_cons, Finding.diagnostic?, Finding.block?,
            List.filter_cons_of_pos hmodel, List.flatMap_cons, Finding.reports, hmodel, if_true]
          exact (List.perm_append_comm_assoc ..).trans (ih.append_left _)
  have hall := hfindings (walk none content).2
  refine List.Perm.trans ?_ (hall.append_right _)
  simp only [ofScan, Scan.ofLines, List.append_assoc]
  exact List.perm_append_comm.append_left _

/-! ### One line, one reading -/

/-- What an entry brings stands on its line: a field or a problem, and not both. -/
theorem Entry.count_line_le (line : SourceLine) (model : String) (identified : Bool)
    (number : Nat) :
    ((ofLine line).field?.toList.map Field.line).count number +
        (((ofLine line).problem? model identified).toList.map fun _ => line.number).count number ≤
      [line.number].count number := by
  cases hentry : ofLine line with
  | declared field =>
    have hline : field.line = line.number := by
      apply line_of_field?
      rw [hentry]
      rfl
    simp [field?, problem?, hline]
  | comment | «attribute» => simp [field?, problem?]
  | identity id? | unrecognized =>
    cases hproblem : problem? model identified _ with
    | none => simp [field?]
    | some problem => simp [field?]

/-- The lines of a body are read once each, as a field or with a problem. -/
theorem count_body_le (model : String) (identified : Bool) (body : List SourceLine)
    (number : Nat) :
    (((body.map Entry.ofLine).filterMap Entry.field?).map Field.line).count number +
        ((bodyDiagnostics model identified body).map Diagnostic.line).count number ≤
      (body.map SourceLine.number).count number := by
  induction body generalizing identified with
  | nil => simp [bodyDiagnostics]
  | cons line rest ih =>
    have hhere := Entry.count_line_le line model identified number
    have hlater := ih (identified || (Entry.ofLine line).compositeId?.isSome)
    have hfields : ((line :: rest).map Entry.ofLine).filterMap Entry.field? =
        (Entry.ofLine line).field?.toList ++ (rest.map Entry.ofLine).filterMap Entry.field? := by
      cases h : (Entry.ofLine line).field? with
      | none => simp [h]
      | some field => simp [h]
    have hreports : (bodyDiagnostics model identified (line :: rest)).map Diagnostic.line =
        (((Entry.ofLine line).problem? model identified).toList.map fun _ => line.number) ++
          (bodyDiagnostics model (identified || (Entry.ofLine line).compositeId?.isSome) rest).map
            Diagnostic.line := by
      rw [bodyDiagnostics]
      cases (Entry.ofLine line).problem? model identified with
      | none => rfl
      | some problem => rfl
    rw [hfields, hreports, List.map_append, List.count_append, List.count_append, List.map_cons,
      ← List.singleton_append, List.count_append]
    omega

theorem Finding.count_lines_le (finding : Finding) (number : Nat) :
    (finding.fields.map Field.line).count number +
        (finding.reports.map Diagnostic.line).count number ≤ finding.numbers.count number := by
  cases finding with
  | problem diagnostic => simp [fields, reports, numbers]
  | complete block =>
    cases hmodel : block.isModel with
    | false => simp [fields, reports, hmodel]
    | true =>
      rw [fields, reports, if_pos hmodel, if_pos hmodel]
      exact count_body_le block.name false block.body number

/-- No line of a source is named by two fields, by two diagnostics, or by one of each. -/
theorem count_lines_le (source : String) (number : Nat) :
    ((Document.ofSource source).fields.map Field.line).count number +
      ((Document.ofSource source).diagnostics.map Diagnostic.line).count number ≤ 1 := by
  have hfindings : ∀ findings : List Finding,
      ((findings.flatMap Finding.fields).map Field.line).count number +
        ((findings.flatMap Finding.reports).map Diagnostic.line).count number ≤
          (findings.flatMap Finding.numbers).count number := by
    intro findings
    induction findings with
    | nil => simp
    | cons finding rest ih =>
      have hhere := finding.count_lines_le number
      simp only [List.flatMap_cons, List.map_append, List.count_append]
      omega
  have hfields := Document.fields_ofLines (sourceLines source.toList)
  have hreports := Document.diagnostics_ofLines (sourceLines source.toList)
  have hall := hfindings (walk none (sourceLines source.toList)).2
  have hnamed : (namedNumbers (sourceLines source.toList)).count number ≤ 1 :=
    List.nodup_iff_count_le_one.mp ((namedNumbers_increasing source.toList).imp Nat.ne_of_lt) number
  have hunclosed : (((walk none (sourceLines source.toList)).1.map Block.unclosed).toList.map
      Diagnostic.line) = ((walk none (sourceLines source.toList)).1.map Block.line).toList := by
    cases (walk none (sourceLines source.toList)).1 with
    | none => rfl
    | some block => rfl
  rw [namedNumbers, List.count_append] at hnamed
  rw [Document.ofSource, Scan.ofSource, hfields, (hreports.map Diagnostic.line).count_eq,
    List.map_append, List.count_append, hunclosed]
  omega

/-! ### Order -/

/-- The fields of a body stand in the order of its lines. -/
theorem lines_of_body (body : List SourceLine) :
    ((body.map Entry.ofLine).filterMap Entry.field?).map Field.line <+
      body.map SourceLine.number := by
  induction body with
  | nil => exact List.Sublist.refl _
  | cons line rest ih =>
    rw [List.map_cons, List.map_cons]
    cases hfield : (Entry.ofLine line).field? with
    | none =>
      rw [List.filterMap_cons_none hfield]
      exact ih.cons line.number
    | some field =>
      rw [List.filterMap_cons_some hfield, List.map_cons, Entry.line_of_field? hfield]
      exact ih.cons_cons line.number

theorem Finding.lines_fields (finding : Finding) :
    finding.fields.map Field.line <+ finding.numbers := by
  cases finding with
  | problem diagnostic => exact List.nil_sublist _
  | complete block =>
    cases hmodel : block.isModel with
    | false => simp [fields, hmodel]
    | true =>
      rw [fields, if_pos hmodel]
      exact lines_of_body block.body

/-- The fields of a document stand in the order of their lines. -/
theorem lines_fields_increasing (source : String) :
    ((Document.ofSource source).fields.map Field.line).Pairwise (· < ·) := by
  have hfindings : ((walk none (sourceLines source.toList)).2.flatMap fun finding =>
      finding.fields.map Field.line) <+
        (walk none (sourceLines source.toList)).2.flatMap Finding.numbers :=
    List.Sublist.flatMap_right _ fun finding _ => finding.lines_fields
  have hnamed := namedNumbers_increasing source.toList
  have hfields := Document.fields_ofLines (sourceLines source.toList)
  rw [Document.ofSource, Scan.ofSource, hfields, List.map_flatMap]
  exact hnamed.sublist (hfindings.trans (List.sublist_append_left ..))

/-! ### Where the lines of a body come from -/

/-- A body whose lines are all kept of some lines. -/
def Block.IsKeptOf (content : List SourceLine) (block : Block) : Prop :=
  ∀ entry ∈ block.body, ∃ line ∈ content, Schema.IsKeptOf line entry

theorem Block.IsKeptOf.keep {content : List SourceLine} {block : Block}
    (h : block.IsKeptOf content) {line entry : SourceLine} (hline : line ∈ content)
    (hentry : Schema.IsKeptOf line entry) : (block.keep entry).IsKeptOf content := by
  unfold Block.keep
  split
  · exact h
  · intro other hother
    rcases List.mem_append.mp hother with hother | hother
    · exact h other hother
    · rw [List.mem_singleton.mp hother]
      exact ⟨line, hline, hentry⟩

/-- The body of a block holds nothing but what is kept of the lines that were walked over. -/
theorem isKeptOf_of_walk {content : List SourceLine} {block : Block}
    (h : .complete block ∈ (walk none content).2) : block.IsKeptOf content := by
  have hheader : ∀ line ∈ content, ∀ opened rest, header? line = some (opened, rest) →
      opened.IsKeptOf content := by
    intro line _ opened rest hopened
    obtain ⟨_, _, _, _, _, _, _, rfl⟩ := eq_of_header? hopened
    simp [Block.IsKeptOf]
  exact (walk_preserves (by simp) hheader fun line hline _ _ hentry hblock =>
    hblock.keep hline hentry).2 block h

/-- What is kept of a trimmed line is a trimmed piece of it, under its number. -/
theorem IsKeptOf.exists_piece {line entry : SourceLine} (h : IsKeptOf line entry)
    (htrimmed : trim line.text = line.text) :
    ∃ piece, piece <:+: line.text ∧ entry = ⟨line.number, trim piece⟩ := by
  have htrim : ∀ text : SourceLine, trim text.text = text.text →
      text.kept = ⟨text.number, trim text.kept.text⟩ := by
    intro text htext
    cases hcut : cutAtBrace? .plain text.text with
    | none => rw [SourceLine.kept_of_open hcut, htext]
    | some cut => rw [SourceLine.kept_of_closing hcut, trim_eq_self (isTrimmed_trim cut.1)]
  refine ⟨entry.text, h.text_isInfix, ?_⟩
  rcases h with rfl | ⟨block, rest, -, rfl⟩
  · exact htrim line htrimmed
  · exact htrim ⟨line.number, trim rest⟩ (trim_eq_self (isTrimmed_trim rest))

/-- Every line in the body of a block is a trimmed piece of the source line that it names. -/
theorem exists_piece_of_mem_body {source : List Char} {block : Block}
    (hblock : block ∈ (Scan.ofSource source).blocks) {entry : SourceLine}
    (hentry : entry ∈ block.body) :
    1 ≤ entry.number ∧ ∃ raw piece, (lines source)[entry.number - 1]? = some raw ∧
      piece <:+: raw ∧ entry.text = trim piece := by
  obtain ⟨finding, hfinding, hcomplete⟩ := List.mem_filterMap.mp hblock
  cases finding with
  | problem diagnostic => cases hcomplete
  | complete found =>
    obtain rfl := Option.some.inj hcomplete
    have hkept : found.IsKeptOf (sourceLines source) :=
      isKeptOf_of_walk hfinding
    obtain ⟨line, hline, hof⟩ := hkept entry hentry
    obtain ⟨⟨raw, number⟩, hmem, rfl⟩ := List.mem_map.mp hline
    obtain ⟨piece, hpiece, rfl⟩ := hof.exists_piece (trim_eq_self (isTrimmed_trim raw))
    have hnumber := List.mk_mem_zipIdx_iff_le_and_getElem?_sub.mp hmem
    exact ⟨hnumber.1, raw, piece, hnumber.2, hpiece.trans (trim_isInfix raw), rfl⟩

/-! ### Attribution -/

/-- Of values of which only one is marked like it, a value is the only one with its mark. -/
theorem filter_eq_singleton {α : Type} {mark : α → Nat} {values : List α} {value : α}
    (hvalue : value ∈ values) (h : (values.map mark).count (mark value) ≤ 1) :
    (values.filter fun other => mark other == mark value) = [value] := by
  have hmem : value ∈ values.filter fun other => mark other == mark value := by
    simp [hvalue]
  have hlength : (values.filter fun other => mark other == mark value).length ≤ 1 := by
    rwa [List.count, List.countP_map, List.countP_eq_length_filter] at h
  obtain ⟨only, honly⟩ : ∃ only, (values.filter fun other => mark other == mark value) = [only] :=
    List.length_eq_one_iff.mp (Nat.le_antisymm hlength (List.length_pos_of_mem hmem))
  rw [honly] at hmem ⊢
  rw [List.mem_singleton.mp hmem]

/-- A mark that no value has picks none out. -/
theorem filter_eq_nil {α : Type} {mark : α → Nat} {values : List α} {number : Nat}
    (h : (values.map mark).count number = 0) :
    (values.filter fun other => mark other == number) = [] := by
  rwa [List.count, List.countP_map, List.countP_eq_length_filter, List.length_eq_zero_iff] at h

/-- The fields of a document are read from the bodies of its models. -/
theorem Document.exists_entry_of_mem_fields {source : String} {field : Field}
    (h : field ∈ (ofSource source).fields) :
    ∃ block ∈ (Scan.ofSource source.toList).blocks, ∃ entry ∈ block.body,
      entry.number = field.line ∧ Field.ofLine? entry.text field.line = some field := by
  rw [ofSource, fields_ofScan] at h
  obtain ⟨block, hblock, hfield⟩ := List.mem_flatMap.mp h
  obtain ⟨found, hfound, hdeclared⟩ := List.mem_filterMap.mp hfield
  obtain ⟨entry, hentry, rfl⟩ := List.mem_map.mp hfound
  have hline := Entry.line_of_field? hdeclared
  refine ⟨block, (List.mem_filter.mp hblock).1, entry, hentry, hline.symm, ?_⟩
  rw [hline]
  exact Entry.ofLine?_of_field? hdeclared

section Model

variable {source : String} {block : Block} (hblock : block ∈ (Scan.ofSource source.toList).blocks)
  (hmodel : block.isModel = true)

include hblock hmodel

theorem Document.model_mem_models : block.model ∈ (ofSource source).models :=
  List.mem_map_of_mem (List.mem_filter.mpr ⟨hblock, hmodel⟩)

theorem Document.mem_fields_of_mem_model {field : Field} (h : field ∈ block.model.fields) :
    field ∈ (ofSource source).fields :=
  List.mem_flatMap.mpr ⟨block.model, model_mem_models hblock hmodel, h⟩

theorem Document.mem_diagnostics_of_mem_block {diagnostic : Diagnostic}
    (h : diagnostic ∈ block.diagnostics) : diagnostic ∈ (ofSource source).diagnostics :=
  List.mem_append_right _
    (List.mem_flatMap.mpr ⟨block, List.mem_filter.mpr ⟨hblock, hmodel⟩, h⟩)

/-- A line in the body of a model that is neither a comment nor an attribute is read as one field,
or reported once, and nothing else names it. -/
theorem Document.read_or_reported_once {entry : SourceLine} (hentry : entry ∈ block.body)
    (hcomment : isComment entry.text = false) (hattribute : isBlockAttribute entry.text = false) :
    (∃ field ∈ block.model.fields, Field.ofLine? entry.text entry.number = some field ∧
        ((ofSource source).fields.filter fun other => other.line == entry.number) = [field] ∧
        ((ofSource source).diagnostics.filter fun other => other.line == entry.number) = []) ∨
      Field.ofLine? entry.text entry.number = none ∧
        ((ofSource source).fields.filter fun other => other.line == entry.number) = [] ∧
        ((ofSource source).diagnostics.filter fun other => other.line == entry.number) =
          [⟨entry.number, .unrecognized block.name, String.ofList entry.text⟩] := by
  have hcount := count_lines_le source entry.number
  cases hread : Field.ofLine? entry.text entry.number with
  | some field =>
    have hline : Entry.ofLine entry = .declared field := by
      simp [Entry.ofLine, hcomment, hattribute, hread]
    have hmem : field ∈ block.model.fields :=
      List.mem_filterMap.mpr ⟨.declared field, List.mem_map.mpr ⟨entry, hentry, hline⟩, rfl⟩
    have hfield := mem_fields_of_mem_model hblock hmodel hmem
    have hnumber : field.line = entry.number := Entry.line_of_field? (by rw [hline]; rfl)
    have hpos : 0 < ((ofSource source).fields.map Field.line).count entry.number :=
      List.count_pos_iff.mpr (List.mem_map.mpr ⟨field, hfield, hnumber⟩)
    refine Or.inl ⟨field, hmem, rfl, ?_, filter_eq_nil (by omega)⟩
    rw [← hnumber] at hcount ⊢
    exact filter_eq_singleton hfield (by omega)
  | none =>
    have hline : Entry.ofLine entry = .unrecognized := by
      simp [Entry.ofLine, hcomment, hattribute, hread]
    have hbody := @mem_bodyDiagnostics block.name _ _ hentry hline false
    have hreport := mem_diagnostics_of_mem_block hblock hmodel hbody
    have hpos : 0 < ((ofSource source).diagnostics.map Diagnostic.line).count entry.number :=
      List.count_pos_iff.mpr (List.mem_map.mpr ⟨_, hreport, rfl⟩)
    exact Or.inr ⟨rfl, filter_eq_nil (by omega),
      @filter_eq_singleton _ Diagnostic.line _ _ hreport (by simp only; omega)⟩

end Model

/-- Every line of a source is accounted for once. The fields stand in the order of their lines, and
each is what a trimmed piece of its line declares; no two diagnostics have one line, and none has
the line of a field; and in the body of a model every line that is neither a comment nor an
attribute is one field or one diagnostic. -/
theorem lines_attributed (source : String) :
    ((Document.ofSource source).fields.map Field.line).Pairwise (· < ·) ∧
      (∀ field ∈ (Document.ofSource source).fields,
        1 ≤ field.line ∧ field.line ≤ (lines source.toList).length ∧
          ∃ raw piece, (lines source.toList)[field.line - 1]? = some raw ∧ piece <:+: raw ∧
            Field.ofLine? (trim piece) field.line = some field) ∧
      ((Document.ofSource source).diagnostics.map Diagnostic.line).Nodup ∧
      List.Disjoint ((Document.ofSource source).fields.map Field.line)
        ((Document.ofSource source).diagnostics.map Diagnostic.line) ∧
      ∀ block ∈ (Scan.ofSource source.toList).blocks, block.isModel = true →
        block.model ∈ (Document.ofSource source).models ∧
          ∀ entry ∈ block.body, isComment entry.text = false →
            isBlockAttribute entry.text = false →
              (∃ field ∈ block.model.fields, Field.ofLine? entry.text entry.number = some field ∧
                  ((Document.ofSource source).fields.filter fun other =>
                    other.line == entry.number) = [field] ∧
                  ((Document.ofSource source).diagnostics.filter fun other =>
                    other.line == entry.number) = []) ∨
                Field.ofLine? entry.text entry.number = none ∧
                  ((Document.ofSource source).fields.filter fun other =>
                    other.line == entry.number) = [] ∧
                  ((Document.ofSource source).diagnostics.filter fun other =>
                    other.line == entry.number) =
                      [⟨entry.number, .unrecognized block.name, String.ofList entry.text⟩] := by
  refine ⟨lines_fields_increasing source, ?_, ?_, ?_, ?_⟩
  · intro field hfield
    obtain ⟨block, hblock, entry, hentry, hnumber, hread⟩ :=
      Document.exists_entry_of_mem_fields hfield
    obtain ⟨hpos, raw, piece, hraw, hpiece, htext⟩ := exists_piece_of_mem_body hblock hentry
    rw [hnumber] at hpos hraw
    obtain ⟨hlength, _⟩ := List.getElem?_eq_some_iff.mp hraw
    rw [htext] at hread
    exact ⟨hpos, by omega, raw, piece, hraw, hpiece, hread⟩
  · refine List.nodup_iff_count_le_one.mpr fun number => ?_
    have := count_lines_le source number
    omega
  · intro number hfield hreport
    have hcount := count_lines_le source number
    have hfields := List.count_pos_iff.mpr hfield
    have hreports := List.count_pos_iff.mpr hreport
    omega
  · intro block hblock hmodel
    exact ⟨Document.model_mem_models hblock hmodel, fun entry hentry hcomment hattribute =>
      Document.read_or_reported_once hblock hmodel hentry hcomment hattribute⟩

/-- A model whose body begins on the line of its header and ends on the line of its last entry, a
line in it that is no field, a line behind it that opens no block, and a block that is never
closed. -/
def ledgerSchema : String :=
  "model Ledger \x7b id Int @id\n= oops\nowner String \x7d\nstray\nenum Role \x7b\n"

theorem lines_attributed_ledger :
    (Document.ofSource ledgerSchema).fields.map Field.line = [1, 3] ∧
      (Document.ofSource ledgerSchema).diagnostics.map Diagnostic.line = [4, 5, 2] ∧
      ((Document.ofSource ledgerSchema).fields.filter fun other => other.line == 2) = [] ∧
      ((Document.ofSource ledgerSchema).diagnostics.filter fun other => other.line == 2) =
        [⟨2, .unrecognized "Ledger", "= oops"⟩] := by
  obtain ⟨-, -, -, -, hbody⟩ := lines_attributed ledgerSchema
  let block : Block := ⟨"model", "Ledger", 1,
    [⟨1, "id Int @id".toList⟩, ⟨2, "= oops".toList⟩, ⟨3, "owner String".toList⟩]⟩
  have hblock : block ∈ (Scan.ofSource ledgerSchema.toList).blocks := by decide
  obtain ⟨-, hentries⟩ := hbody block hblock (by decide)
  have hentry := hentries ⟨2, "= oops".toList⟩ (by decide) (by decide) (by decide)
  refine ⟨by decide, by decide, ?_⟩
  rcases hentry with ⟨field, -, hread, -, -⟩ | ⟨-, hfields, hreports⟩
  · have hnone : Field.ofLine? "= oops".toList 2 = none := by decide
    rw [hnone] at hread
    cases hread
  · exact ⟨hfields, hreports⟩

end Scaffold.Schema
