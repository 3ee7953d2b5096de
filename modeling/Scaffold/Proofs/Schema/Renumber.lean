import Scaffold.Schema.Document
import Scaffold.Proofs.Schema.Block

/-!
Line numbers are labels: reading a schema carries them along and decides nothing by them. To label
the lines of a source anew is to label anew what is read from it (`walk_renumber`,
`Block.model_renumber`, `Block.diagnostics_renumber`).
-/

namespace Scaffold.Schema

open Text

/-! ### Renumbering what is read -/

def SourceLine.renumber (label : Nat → Nat) (line : SourceLine) : SourceLine :=
  { line with number := label line.number }

def Diagnostic.renumber (label : Nat → Nat) (diagnostic : Diagnostic) : Diagnostic :=
  { diagnostic with line := label diagnostic.line }

def Field.renumber (label : Nat → Nat) (field : Field) : Field :=
  { field with line := label field.line }

/-- The block with its header and its body lines numbered anew. -/
def Block.renumber (label : Nat → Nat) (block : Block) : Block :=
  { block with line := label block.line, body := block.body.map (SourceLine.renumber label) }

/-- The finding with its block or its diagnostic changed. -/
def Finding.map (onBlock : Block → Block) (onDiagnostic : Diagnostic → Diagnostic) :
    Finding → Finding
  | .complete block => .complete (onBlock block)
  | .problem diagnostic => .problem (onDiagnostic diagnostic)

def Finding.renumber (label : Nat → Nat) : Finding → Finding :=
  Finding.map (Block.renumber label) (Diagnostic.renumber label)

def Entry.renumber (label : Nat → Nat) : Entry → Entry
  | .declared field => .declared (field.renumber label)
  | entry => entry

/-- The model with the lines of its fields numbered anew. -/
def Model.renumber (label : Nat → Nat) (model : Model) : Model :=
  { model with fields := model.fields.map (Field.renumber label) }

/-- The scan with its blocks and diagnostics numbered anew. -/
def Scan.renumber (label : Nat → Nat) (scan : Scan) : Scan :=
  ⟨scan.blocks.map (Block.renumber label), scan.diagnostics.map (Diagnostic.renumber label)⟩

/-! ### Findings -/

/-- What is done to findings on the whole is done to their blocks, since neither kind turns into the
other. -/
theorem filterMap_block?_map (onBlock : Block → Block) (onDiagnostic : Diagnostic → Diagnostic)
    (findings : List Finding) :
    (findings.map (Finding.map onBlock onDiagnostic)).filterMap Finding.block? =
      (findings.filterMap Finding.block?).map onBlock := by
  rw [List.filterMap_map, List.map_filterMap]
  congr 1
  funext finding
  cases finding with
  | complete block => rfl
  | problem diagnostic => rfl

theorem filterMap_diagnostic?_map (onBlock : Block → Block)
    (onDiagnostic : Diagnostic → Diagnostic) (findings : List Finding) :
    (findings.map (Finding.map onBlock onDiagnostic)).filterMap Finding.diagnostic? =
      (findings.filterMap Finding.diagnostic?).map onDiagnostic := by
  rw [List.filterMap_map, List.map_filterMap]
  congr 1
  funext finding
  cases finding with
  | complete block => rfl
  | problem diagnostic => rfl

section Renumber

variable (label : Nat → Nat)

/-! ### Blocks -/

@[simp] theorem SourceLine.text_renumber (line : SourceLine) :
    (line.renumber label).text = line.text := rfl

@[simp] theorem SourceLine.number_renumber (line : SourceLine) :
    (line.renumber label).number = label line.number := rfl

theorem Block.keep_renumber (block : Block) (line : SourceLine) :
    (block.renumber label).keep (line.renumber label) = (block.keep line).renumber label := by
  unfold keep
  rw [SourceLine.text_renumber]
  split
  · rfl
  · simp [push, renumber]

/-- A header is recognized by its text; its number only goes into the block. -/
theorem header?_renumber (line : SourceLine) :
    header? (line.renumber label) =
      (header? line).map fun (block, rest) => (block.renumber label, rest) := by
  unfold header?
  rw [SourceLine.text_renumber]
  split
  · rfl
  · split
    · split
      · rfl
      · rfl
    · rfl

/-- A step in an open block goes the same way whatever the number of the line. -/
theorem step_some_renumber (block : Block) (line : SourceLine) :
    step (some (block.renumber label)) (line.renumber label) =
      ((step (some block) line).1.map (Block.renumber label),
        (step (some block) line).2.map (Finding.renumber label)) := by
  cases hcut : cutAtBrace? .plain line.text with
  | none =>
    have hopen : closesBlock line.text = false := by simp [closesBlock, hcut]
    have hopen' : closesBlock (line.renumber label).text = false := hopen
    simp [step, Block.feed_of_open hopen, Block.feed_of_open hopen', Fed.outcome,
      Block.keep_renumber]
  | some cut =>
    have hcut' : cutAtBrace? .plain (line.renumber label).text = some (cut.1, cut.2) := hcut
    rw [step_closing hcut, step_closing hcut']
    have hkeep : (block.renumber label).keep ⟨label line.number, trim cut.1⟩ =
        (block.keep ⟨line.number, trim cut.1⟩).renumber label :=
      Block.keep_renumber label block ⟨line.number, trim cut.1⟩
    simp [Finding.renumber, Finding.map, hkeep]

/-- One line is scanned alike under either label: with a block open, at a header, and between
blocks. -/
theorem step_renumber (openBlock : Option Block) (line : SourceLine) :
    step (openBlock.map (Block.renumber label)) (line.renumber label) =
      ((step openBlock line).1.map (Block.renumber label),
        (step openBlock line).2.map (Finding.renumber label)) := by
  cases openBlock with
  | some block => exact step_some_renumber label block line
  | none =>
    cases hheader : header? line with
    | some opened =>
      obtain ⟨block, rest⟩ := opened
      have hheader' : header? (line.renumber label) = some (block.renumber label, rest) := by
        rw [header?_renumber, hheader, Option.map_some]
      have hstep : step none line = step (some block) ⟨line.number, trim rest⟩ :=
        step_of_header? hheader
      have hstep' : step none (line.renumber label) =
          step (some (block.renumber label)) (SourceLine.renumber label ⟨line.number, trim rest⟩) :=
        step_of_header? hheader'
      -- What stands behind the brace has the number of the header.
      rw [Option.map_none, hstep, hstep']
      exact step_some_renumber label block _
    | none =>
      have hheader' : header? (line.renumber label) = none := by
        rw [header?_renumber, hheader, Option.map_none]
      unfold step
      simp only [Option.map_none, hheader, hheader', SourceLine.text_renumber]
      split
      · rfl
      · rfl

/-- By induction on the lines, as a step hands on a block that is already labelled anew. -/
theorem walk_renumber (openBlock : Option Block) (content : List SourceLine) :
    walk (openBlock.map (Block.renumber label)) (content.map (SourceLine.renumber label)) =
      ((walk openBlock content).1.map (Block.renumber label),
        (walk openBlock content).2.map (Finding.renumber label)) := by
  induction content generalizing openBlock with
  | nil => rfl
  | cons line rest ih =>
    rw [List.map_cons, walk, walk, step_renumber, ih]
    cases (step openBlock line).2 with
    | none => rfl
    | some finding => rfl

/-- A block left open at the end is reported at its header, whose number is labelled as well. -/
theorem Scan.ofLines_renumber (content : List SourceLine) :
    ofLines (content.map (SourceLine.renumber label)) = (ofLines content).renumber label := by
  have hwalk := walk_renumber label none content
  rw [Option.map_none] at hwalk
  have hopen : ((walk none content).1.map (Block.renumber label)).map Block.unclosed =
      ((walk none content).1.map Block.unclosed).map (Diagnostic.renumber label) := by
    cases (walk none content).1 with
    | none => rfl
    | some block => rfl
  unfold ofLines renumber
  simp only [hwalk, Finding.renumber, filterMap_block?_map, filterMap_diagnostic?_map, hopen,
    Option.toList_map, List.map_append]

/-! ### Models -/

/-- The number of a line is recorded in its field and not looked at. -/
theorem Field.ofLine?_renumber (text : List Char) (number : Nat) :
    ofLine? text (label number) = (ofLine? text number).map (Field.renumber label) := by
  rw [ofLine?, ofLine?, Option.map_map]
  rfl

theorem Entry.ofLine_renumber (line : SourceLine) :
    ofLine (line.renumber label) = (ofLine line).renumber label := by
  unfold ofLine
  rw [SourceLine.text_renumber, SourceLine.number_renumber, Field.ofLine?_renumber]
  split
  · rfl
  · split
    · split
      · rfl
      · rfl
    · cases Field.ofLine? line.text line.number with
      | none => rfl
      | some field => rfl

theorem Entry.compositeId?_renumber (entry : Entry) :
    (entry.renumber label).compositeId? = entry.compositeId? := by
  cases entry with
  | comment | declared field | identity id? | «attribute» | unrecognized => rfl

theorem Entry.field?_renumber (entry : Entry) :
    (entry.renumber label).field? = entry.field?.map (Field.renumber label) := by
  cases entry with
  | comment | declared field | identity id? | «attribute» | unrecognized => rfl

/-- Problems are told by the kind of an entry and by what stands above it. -/
theorem Entry.problem?_renumber (model : String) (identified : Bool) (entry : Entry) :
    (entry.renumber label).problem? model identified = entry.problem? model identified := by
  cases entry with
  | comment | declared field | identity id? | «attribute» | unrecognized => rfl

/-- Reading the model of a block commutes with labelling. -/
theorem Block.model_renumber (block : Block) :
    (block.renumber label).model = block.model.renumber label := by
  have hentries : (block.renumber label).body.map Entry.ofLine =
      (block.body.map Entry.ofLine).map (Entry.renumber label) := by
    simp [renumber, Function.comp_def, Entry.ofLine_renumber]
  unfold model
  rw [hentries]
  simp [Model.renumber, renumber, List.filterMap_map, List.map_filterMap, List.findSome?_map,
    Function.comp_def, Entry.field?_renumber, Entry.compositeId?_renumber]

/-- By induction on the body: whether an identity was declared above does not depend on labels. -/
theorem bodyDiagnostics_renumber (model : String) (identified : Bool) (body : List SourceLine) :
    bodyDiagnostics model identified (body.map (SourceLine.renumber label)) =
      (bodyDiagnostics model identified body).map (Diagnostic.renumber label) := by
  induction body generalizing identified with
  | nil => rfl
  | cons line rest ih =>
    rw [List.map_cons, bodyDiagnostics, bodyDiagnostics]
    simp only [Entry.ofLine_renumber, Entry.problem?_renumber, Entry.compositeId?_renumber, ih,
      List.map_append]
    cases (Entry.ofLine line).problem? model identified with
    | none => rfl
    | some problem => rfl

theorem Block.diagnostics_renumber (block : Block) :
    (block.renumber label).diagnostics = block.diagnostics.map (Diagnostic.renumber label) :=
  bodyDiagnostics_renumber label block.name false block.body

theorem filter_isModel_renumber (blocks : List Block) :
    (blocks.map (Block.renumber label)).filter Block.isModel =
      (blocks.filter Block.isModel).map (Block.renumber label) :=
  List.filter_map

end Renumber

end Scaffold.Schema
