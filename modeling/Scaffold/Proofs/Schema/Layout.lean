import Scaffold.Proofs.Schema.Renumber

/-!
The layout of a schema. Two sources whose lines are the same once they are trimmed and the idle ones
among them, blank lines and comments, are left out (`codeLines`), are read as the same models with
the same diagnostics, but for line numbers (`models_of_codeLines`, `diagnostics_of_codeLines`).

A comment is kept in the body of a block and a blank line is not, so walks over two such sources go
through different blocks. What they have in common is the block without its comments and line
numbers (`Block.bare`), and each step keeps that in common (`step_congr`).
-/

namespace Scaffold.Schema

open Text

/-- Whether a trimmed line says nothing: it is blank, or a comment. -/
def isIdle (text : List Char) : Bool :=
  text.isEmpty || isComment text

/-- The trimmed lines of a source that are not idle. -/
def codeLines (source : List Char) : List (List Char) :=
  ((lines source).map trim).filter fun text => !isIdle text

/-- The label of every line, where line numbers do not matter. -/
def unnumbered (_ : Nat) : Nat := 0

/-! ### Bare blocks -/

/-- The block without line numbers and without the comments in its body. -/
def Block.bare (block : Block) : Block :=
  { block.renumber unnumbered with
    body := (block.renumber unnumbered).body.filter fun line => !isComment line.text }

/-- The finding without line numbers and comments. -/
def Finding.bare : Finding → Finding :=
  Finding.map Block.bare (Diagnostic.renumber unnumbered)

/-- A block that loses its line numbers twice loses them once. -/
theorem Block.bare_renumber (block : Block) : (block.renumber unnumbered).bare = block.bare := by
  have hlines : (block.body.map (SourceLine.renumber unnumbered)).map
      (SourceLine.renumber unnumbered) = block.body.map (SourceLine.renumber unnumbered) := by
    rw [List.map_map]
    rfl
  unfold bare renumber
  rw [hlines]
  rfl

theorem Finding.bare_renumber (finding : Finding) :
    (finding.renumber unnumbered).bare = finding.bare := by
  cases finding with
  | complete block => exact congrArg Finding.complete block.bare_renumber
  | problem diagnostic => rfl

theorem Block.bare_push (block : Block) (line : SourceLine) :
    (block.push line).bare =
      if isComment line.text then block.bare
      else block.bare.push (line.renumber unnumbered) := by
  cases h : isComment line.text with
  | true => simp [bare, renumber, push, h]
  | false => simp [bare, renumber, push, h]

/-- What a kept line adds to a bare block is decided by its text. -/
theorem Block.bare_keep_congr {first second : Block} (h : first.bare = second.bare)
    {line other : SourceLine} (htext : line.text = other.text) :
    (first.keep line).bare = (second.keep other).bare := by
  have hline : line.renumber unnumbered = other.renumber unnumbered := by
    simp [SourceLine.renumber, htext, unnumbered]
  unfold keep
  rw [htext]
  split
  · exact h
  · rw [bare_push, bare_push, htext, h, hline]

/-! ### Steps -/

/-- An idle line finds nothing and leaves the bare block as it is. -/
theorem step_idle {line : SourceLine} (h : isIdle line.text = true) (openBlock : Option Block) :
    (step openBlock line).2 = none ∧
      (step openBlock line).1.map Block.bare = openBlock.map Block.bare := by
  cases openBlock with
  | none =>
    have hstep : step none line = (none, none) := if_pos h
    simp [hstep]
  | some block =>
    cases hempty : line.text.isEmpty with
    | true => simp [step, Block.feed, hempty, Fed.outcome]
    | false =>
      have hcomment : isComment line.text = true := by simpa [isIdle, hempty] using h
      simp [step, Block.feed, hempty, hcomment, Fed.outcome, Block.bare_push]

/-- In blocks that are bare the same, lines of the same text do the same. -/
theorem step_some_congr {first second : Block} (h : first.bare = second.bare)
    {line other : SourceLine} (htext : line.text = other.text) :
    (step (some first) line).1.map Block.bare = (step (some second) other).1.map Block.bare ∧
      (step (some first) line).2.map Finding.bare =
        (step (some second) other).2.map Finding.bare := by
  cases hcut : cutAtBrace? .plain line.text with
  | none =>
    have hopen : closesBlock line.text = false := by simp [closesBlock, hcut]
    have hopen' : closesBlock other.text = false := htext ▸ hopen
    simpa [step, Block.feed_of_open hopen, Block.feed_of_open hopen', Fed.outcome] using
      Block.bare_keep_congr h htext
  | some cut =>
    have hline : cutAtBrace? .plain line.text = some (cut.1, cut.2) := hcut
    have hother : cutAtBrace? .plain other.text = some (cut.1, cut.2) := htext ▸ hcut
    have hkeep : (first.keep ⟨line.number, trim cut.1⟩).bare =
        (second.keep ⟨other.number, trim cut.1⟩).bare :=
      Block.bare_keep_congr h rfl
    rw [step_closing hline, step_closing hother]
    simpa [Finding.bare, Finding.map] using hkeep

theorem step_congr {first second : Option Block}
    (h : first.map Block.bare = second.map Block.bare) {line other : SourceLine}
    (htext : line.text = other.text) :
    (step first line).1.map Block.bare = (step second other).1.map Block.bare ∧
      (step first line).2.map Finding.bare = (step second other).2.map Finding.bare := by
  cases first with
  | some block =>
    cases second with
    | some block' => exact step_some_congr (Option.some.inj h) htext
    | none => cases h
  | none =>
    cases second with
    | some block => cases h
    | none =>
      -- Outside of every block the two lines differ in their numbers at most.
      have hline : other.renumber unnumbered = line.renumber unnumbered := by
        simp [SourceLine.renumber, htext, unnumbered]
      have hstep := step_renumber unnumbered none line
      rw [← hline, step_renumber unnumbered none other] at hstep
      obtain ⟨hopen, hfinding⟩ := Prod.mk.inj hstep
      constructor
      · have := congrArg (Option.map Block.bare) hopen
        simpa [Function.comp_def, Block.bare_renumber] using this.symm
      · have := congrArg (Option.map Finding.bare) hfinding
        simpa [Function.comp_def, Finding.bare_renumber] using this.symm

/-! ### Walks -/

/-- A walk without line numbers and comments: the block that it leaves open, and its findings. -/
def bareWalk (openBlock : Option Block) (content : List SourceLine) :
    Option Block × List Finding :=
  ((walk openBlock content).1.map Block.bare, (walk openBlock content).2.map Finding.bare)

theorem bareWalk_cons (openBlock : Option Block) (line : SourceLine) (rest : List SourceLine) :
    bareWalk openBlock (line :: rest) =
      ((bareWalk (step openBlock line).1 rest).1,
        ((step openBlock line).2.map Finding.bare).toList ++
          (bareWalk (step openBlock line).1 rest).2) := by
  simp [bareWalk, walk, Option.toList_map]

/-- Idle lines do not matter to a walk. -/
theorem bareWalk_filter {first second : Option Block}
    (h : first.map Block.bare = second.map Block.bare) (content : List SourceLine) :
    bareWalk first content =
      bareWalk second (content.filter fun line => !isIdle line.text) := by
  induction content generalizing first second with
  | nil => simp [bareWalk, walk, h]
  | cons line rest ih =>
    cases hidle : isIdle line.text with
    | true =>
      obtain ⟨hfinding, hopen⟩ := step_idle hidle first
      rw [List.filter_cons_of_neg (by simp [hidle]), bareWalk_cons, hfinding,
        ih (hopen.trans h)]
      rfl
    | false =>
      obtain ⟨hopen, hfinding⟩ := step_congr h (rfl : line.text = line.text)
      rw [List.filter_cons_of_pos (by simp [hidle]), bareWalk_cons, bareWalk_cons, hfinding,
        ih hopen]

/-- To a walk only the texts of its lines matter. -/
theorem bareWalk_of_texts {first second : Option Block}
    (h : first.map Block.bare = second.map Block.bare) {content others : List SourceLine}
    (htexts : content.map SourceLine.text = others.map SourceLine.text) :
    bareWalk first content = bareWalk second others := by
  induction content generalizing first second others with
  | nil =>
    obtain rfl : others = [] := by simpa using htexts.symm
    simp [bareWalk, walk, h]
  | cons line rest ih =>
    cases others with
    | nil => cases htexts
    | cons other more =>
      obtain ⟨htext, htexts⟩ := List.cons.inj htexts
      obtain ⟨hopen, hfinding⟩ := step_congr h htext
      rw [bareWalk_cons, bareWalk_cons, hfinding, ih hopen htexts]

theorem texts_filter_sourceLines (source : List Char) :
    ((sourceLines source).filter fun line => !isIdle line.text).map SourceLine.text =
      codeLines source := by
  have htexts : (sourceLines source).map SourceLine.text = (lines source).map trim := by
    rw [sourceLines, List.map_map]
    change ((lines source).zipIdx 1).map (trim ∘ Prod.fst) = _
    rw [← List.map_map, List.zipIdx_map_fst]
  rw [codeLines, ← htexts, List.filter_map]
  rfl

/-! ### Documents -/

/-- The scan without line numbers and comments. -/
def Scan.bare (scan : Scan) : Scan :=
  ⟨scan.blocks.map Block.bare, scan.diagnostics.map (Diagnostic.renumber unnumbered)⟩

theorem Scan.bare_ofLines (content : List SourceLine) :
    (ofLines content).bare =
      ⟨(bareWalk none content).2.filterMap Finding.block?,
        (bareWalk none content).2.filterMap Finding.diagnostic? ++
          ((bareWalk none content).1.map Block.unclosed).toList⟩ := by
  have hunclosed : ((walk none content).1.map Block.unclosed).map (Diagnostic.renumber unnumbered) =
      ((walk none content).1.map Block.bare).map Block.unclosed := by
    cases (walk none content).1 with
    | none => rfl
    | some block => rfl
  unfold bare ofLines bareWalk
  simp only [List.map_append, Finding.bare, filterMap_block?_map, filterMap_diagnostic?_map,
    ← hunclosed, Option.toList_map]

/-- Sources of the same code are scanned to the same blocks and diagnostics. -/
theorem Scan.bare_ofSource {first second : List Char} (h : codeLines first = codeLines second) :
    (ofSource first).bare = (ofSource second).bare := by
  have hwalk : bareWalk none (sourceLines first) = bareWalk none (sourceLines second) := by
    rw [bareWalk_filter rfl (sourceLines first), bareWalk_filter rfl (sourceLines second)]
    apply bareWalk_of_texts rfl
    rw [texts_filter_sourceLines, texts_filter_sourceLines, h]
  rw [ofSource, ofSource, bare_ofLines, bare_ofLines, hwalk]

theorem Entry.ofLine_of_isComment {line : SourceLine} (h : isComment line.text = true) :
    ofLine line = .comment :=
  if_pos h

/-- Comments add nothing to the model of a block. -/
theorem Block.model_bare (block : Block) : block.bare.model = block.model.renumber unnumbered := by
  have hfields : ∀ body : List SourceLine,
      ((body.filter fun line => !isComment line.text).map Entry.ofLine).filterMap Entry.field? =
        (body.map Entry.ofLine).filterMap Entry.field? := by
    intro body
    induction body with
    | nil => rfl
    | cons line rest ih =>
      cases hcomment : isComment line.text with
      | true =>
        rw [List.filter_cons_of_neg (by simp [hcomment]), ih, List.map_cons,
          Entry.ofLine_of_isComment hcomment, List.filterMap_cons_none rfl]
      | false =>
        rw [List.filter_cons_of_pos (by simp [hcomment]), List.map_cons, List.map_cons,
          List.filterMap_cons, List.filterMap_cons, ih]
  have hidentity : ∀ body : List SourceLine,
      ((body.filter fun line => !isComment line.text).map Entry.ofLine).findSome?
          Entry.compositeId? =
        (body.map Entry.ofLine).findSome? Entry.compositeId? := by
    intro body
    induction body with
    | nil => rfl
    | cons line rest ih =>
      cases hcomment : isComment line.text with
      | true =>
        rw [List.filter_cons_of_neg (by simp [hcomment]), ih, List.map_cons,
          Entry.ofLine_of_isComment hcomment, List.findSome?_cons]
        rfl
      | false =>
        rw [List.filter_cons_of_pos (by simp [hcomment]), List.map_cons, List.map_cons,
          List.findSome?_cons, List.findSome?_cons, ih]
  rw [← model_renumber]
  unfold bare model
  simp only [hfields, hidentity]

theorem bodyDiagnostics_filter (model : String) (identified : Bool) (body : List SourceLine) :
    bodyDiagnostics model identified (body.filter fun line => !isComment line.text) =
      bodyDiagnostics model identified body := by
  induction body generalizing identified with
  | nil => rfl
  | cons line rest ih =>
    cases hcomment : isComment line.text with
    | true =>
      rw [List.filter_cons_of_neg (by simp [hcomment]), ih, bodyDiagnostics,
        Entry.ofLine_of_isComment hcomment]
      simp [Entry.problem?, Entry.compositeId?]
    | false =>
      rw [List.filter_cons_of_pos (by simp [hcomment]), bodyDiagnostics, bodyDiagnostics, ih]

theorem Block.diagnostics_bare (block : Block) :
    block.bare.diagnostics = block.diagnostics.map (Diagnostic.renumber unnumbered) := by
  rw [← diagnostics_renumber]
  exact bodyDiagnostics_filter block.name false _

theorem filter_isModel_bare (blocks : List Block) :
    (blocks.map Block.bare).filter Block.isModel = (blocks.filter Block.isModel).map Block.bare :=
  List.filter_map

theorem Document.models_bare (scan : Scan) :
    (ofScan scan.bare).models = (ofScan scan).models.map (Model.renumber unnumbered) := by
  simp [ofScan, Scan.bare, filter_isModel_bare, Function.comp_def, Block.model_bare]

theorem Document.diagnostics_bare (scan : Scan) :
    (ofScan scan.bare).diagnostics =
      (ofScan scan).diagnostics.map (Diagnostic.renumber unnumbered) := by
  simp [ofScan, Scan.bare, filter_isModel_bare, List.flatMap_map, List.map_flatMap,
    Block.diagnostics_bare]

/-- Sources of the same code declare the same models. -/
theorem models_of_codeLines {first second : String}
    (h : codeLines first.toList = codeLines second.toList) :
    (Document.ofSource first).models.map (Model.renumber unnumbered) =
      (Document.ofSource second).models.map (Model.renumber unnumbered) := by
  rw [Document.ofSource, Document.ofSource, ← Document.models_bare, ← Document.models_bare,
    Scan.bare_ofSource h]

/-- Sources of the same code have the same problems. -/
theorem diagnostics_of_codeLines {first second : String}
    (h : codeLines first.toList = codeLines second.toList) :
    (Document.ofSource first).diagnostics.map (Diagnostic.renumber unnumbered) =
      (Document.ofSource second).diagnostics.map (Diagnostic.renumber unnumbered) := by
  rw [Document.ofSource, Document.ofSource, ← Document.diagnostics_bare,
    ← Document.diagnostics_bare, Scan.bare_ofSource h]

end Scaffold.Schema
