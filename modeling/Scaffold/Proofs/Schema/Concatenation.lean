import Scaffold.Proofs.Schema.Enclosure
import Scaffold.Proofs.Schema.Renumber
import Scaffold.Proofs.Text.Lines

/-!
Schemas put together. Text that is appended leaves every model that was read before it
(`models_isPrefix_append`). Behind a text of whole lines that leaves no block open, a schema is read
as it is read alone, further down (`ofSource_concatenated`).
-/

namespace Scaffold.Schema

open Text

/-! ### Lines that go on -/

/-- A text that goes on is cut at the same brace. -/
theorem cutAtBrace?_append {mode : LexMode} {text before after : List Char}
    (h : cutAtBrace? mode text = some (before, after)) (more : List Char) :
    cutAtBrace? mode (text ++ more) = some (before, after ++ more) := by
  induction text generalizing mode before with
  | nil => cases h
  | cons c rest ih =>
    rw [cutAtBrace?] at h
    rw [List.cons_append, cutAtBrace?]
    by_cases hbrace : mode = .plain ∧ c = '}'
    · rw [if_pos hbrace] at h ⊢
      obtain ⟨rfl, rfl⟩ := Prod.mk.inj (Option.some.inj h)
      rfl
    · rw [if_neg hbrace] at h ⊢
      by_cases hcomment : mode = .plain ∧ isComment (c :: rest) = true
      · rw [if_pos hcomment] at h
        cases h
      · rw [if_neg hcomment] at h
        obtain ⟨⟨inner, behind⟩, hinner, heq⟩ := Option.map_eq_some_iff.mp h
        obtain ⟨rfl, rfl⟩ := Prod.mk.inj heq
        -- There is a brace in the rest, so what follows is not needed to tell a comment.
        have hsame : isComment (c :: (rest ++ more)) = isComment (c :: rest) := by
          cases rest with
          | nil => cases hinner
          | cons d others =>
            rw [List.cons_append, isComment_cons_cons, isComment_cons_cons]
        rw [hsame, if_neg hcomment, ih hinner]
        rfl

/-- A header is one still when its line goes on. -/
theorem header?_append {number : Nat} {text : List Char} {block : Block} {rest : List Char}
    (h : header? ⟨number, text⟩ = some (block, rest)) (more : List Char) :
    header? ⟨number, text ++ more⟩ = some (block, rest ++ more) := by
  unfold header? at h ⊢
  split at h
  · cases h
  next head behind hcut =>
    obtain ⟨htext, hhead⟩ := cutAt?_eq_some.mp hcut
    have hmore : cutAt? '{' (text ++ more) = some (head, behind ++ more) := by
      refine cutAt?_eq_some.mpr ⟨?_, hhead⟩
      change text = _ at htext
      simp [htext]
    simp only [hmore]
    split at h
    next keyword name =>
      split at h
      next hword =>
        obtain ⟨rfl, rfl⟩ := Prod.mk.inj (Option.some.inj h)
        rw [if_pos hword]
      next => cases h
    next => cases h

/-- A line that completes the open block completes it as well if it goes on. -/
theorem complete_some_append {block completed : Block} {number : Nat} {text longer : List Char}
    (h : (step (some block) ⟨number, text⟩).2 = some (.complete completed))
    (hlonger : text <+: longer) :
    (step (some block) ⟨number, longer⟩).2 = some (.complete completed) := by
  obtain ⟨more, rfl⟩ := hlonger
  cases hcut : cutAtBrace? .plain text with
  | none =>
    have hopen : closesBlock (SourceLine.mk number text).text = false := by
      simp [closesBlock, hcut]
    simp [step, Block.feed_of_open hopen, Fed.outcome] at h
  | some cut =>
    have hline : cutAtBrace? .plain (SourceLine.mk number text).text = some (cut.1, cut.2) := hcut
    have hmore : cutAtBrace? .plain (SourceLine.mk number (text ++ more)).text =
        some (cut.1, cut.2 ++ more) :=
      cutAtBrace?_append hcut more
    rw [step_closing hline] at h
    rw [step_closing hmore]
    exact h

theorem complete_append {openBlock : Option Block} {completed : Block} {number : Nat}
    {text longer : List Char}
    (h : (step openBlock ⟨number, text⟩).2 = some (.complete completed))
    (hlonger : text <+: longer) :
    (step openBlock ⟨number, longer⟩).2 = some (.complete completed) := by
  cases openBlock with
  | some block => exact complete_some_append h hlonger
  | none =>
    cases hheader : header? ⟨number, text⟩ with
    | none =>
      unfold step at h
      simp only [hheader] at h
      split at h
      · cases h
      · cases h
    | some opened =>
      obtain ⟨block, rest⟩ := opened
      obtain ⟨more, rfl⟩ := hlonger
      have hstep : step none ⟨number, text⟩ = step (some block) ⟨number, trim rest⟩ :=
        step_of_header? hheader
      have hmore : step none ⟨number, text ++ more⟩ =
          step (some block) ⟨number, trim (rest ++ more)⟩ :=
        step_of_header? (header?_append hheader more)
      rw [hstep] at h
      rw [hmore]
      exact complete_some_append h (trim_isPrefix_append rest more)

/-! ### Appended text -/

/-- The blocks that some lines complete, given the one that is open before them. -/
def completed (openBlock : Option Block) (content : List SourceLine) : List Block :=
  (walk openBlock content).2.filterMap Finding.block?

/-- The blocks of more lines depend on those above by the block that these leave open. -/
theorem completed_append (openBlock : Option Block) (first second : List SourceLine) :
    completed openBlock (first ++ second) =
      completed openBlock first ++ completed (walk openBlock first).1 second := by
  simp [completed, walk_append]

/-- A line that goes on completes the blocks that it completed before. -/
theorem completed_isPrefix_of_line {openBlock : Option Block} {number : Nat}
    {text longer : List Char} (hlonger : text <+: longer) (rest : List SourceLine) :
    completed openBlock [⟨number, text⟩] <+: completed openBlock (⟨number, longer⟩ :: rest) := by
  cases hfinding : (step openBlock ⟨number, text⟩).2 with
  | none =>
    have hnil : completed openBlock [⟨number, text⟩] = [] := by simp [completed, walk, hfinding]
    rw [hnil]
    exact List.nil_prefix
  | some finding =>
    cases finding with
    | problem diagnostic =>
      have hnil : completed openBlock [⟨number, text⟩] = [] := by
        simp [completed, walk, hfinding, Finding.block?]
      rw [hnil]
      exact List.nil_prefix
    | complete block =>
      have hmore := complete_append hfinding hlonger
      simp [completed, walk, hfinding, hmore, Finding.block?]

theorem Document.models_ofSource (source : String) :
    (ofSource source).models =
      ((completed none (sourceLines source.toList)).filter Block.isModel).map Block.model := rfl

/-- Appended text leaves the blocks that are completed before it. -/
theorem completed_isPrefix_append (first second : List Char) :
    completed none (sourceLines first) <+: completed none (sourceLines (first ++ second)) := by
  obtain ⟨front, last, rfl, hends, hlast⟩ := exists_lastLine first
  rw [sourceLines_eq_numbered, sourceLines_eq_numbered, List.append_assoc, lines_append hends,
    lines_append hends, numbered_append, numbered_append, completed_append, completed_append,
    List.prefix_append_right_inj]
  by_cases hnil : last = []
  · rw [hnil]
    exact List.nil_prefix
  · obtain ⟨tail, rest, hlines⟩ := exists_lines_append hnil hlast second
    rw [lines_of_newline_not_mem hnil hlast, hlines]
    exact completed_isPrefix_of_line (trim_isPrefix_append last tail) _

/-- Appended text leaves the models that are read before it. -/
theorem models_isPrefix_append (first second : String) :
    (Document.ofSource first).models <+: (Document.ofSource (first ++ second)).models := by
  rw [Document.models_ofSource, Document.models_ofSource, String.toList_append]
  have hcompleted := completed_isPrefix_append first.toList second.toList
  exact (hcompleted.filter Block.isModel).map Block.model

/-! ### Two schemas -/

/-- The number of a line that so many lines stand before. -/
def below (count : Nat) (number : Nat) : Nat :=
  number + count

theorem numbered_below (start count : Nat) (content : List (List Char)) :
    numbered (start + count) content =
      (numbered start content).map (SourceLine.renumber (below count)) := by
  induction content generalizing start with
  | nil => rfl
  | cons line rest ih =>
    have hnext := ih (start + 1)
    rw [Nat.add_right_comm] at hnext
    rw [numbered_cons, numbered_cons, List.map_cons, hnext]
    rfl

/-- Lines further down have higher numbers and are the same otherwise. -/
theorem sourceLines_append {first : List Char} (h : EndsLine first) (second : List Char) :
    sourceLines (first ++ second) =
      sourceLines first ++
        (sourceLines second).map (SourceLine.renumber (below (lines first).length)) := by
  rw [sourceLines_eq_numbered, sourceLines_eq_numbered, sourceLines_eq_numbered, lines_append h,
    numbered_append, numbered_below]

/-- The scan of two schemas, the second one below so many lines. -/
def Scan.over (above : Scan) (count : Nat) (scan : Scan) : Scan where
  blocks := above.blocks ++ scan.blocks.map (Block.renumber (below count))
  diagnostics := above.diagnostics ++ scan.diagnostics.map (Diagnostic.renumber (below count))

theorem Scan.ofSource_append {first : List Char} (hends : EndsLine first)
    (hclosed : ¬ LeavesOpen (sourceLines first)) (second : List Char) :
    ofSource (first ++ second) = (ofSource first).over (lines first).length (ofSource second) := by
  rw [ofSource, sourceLines_append hends, ofLines_append (walk_of_not_leavesOpen hclosed),
    ofLines_renumber]
  rfl

theorem Document.models_over (above scan : Scan) (count : Nat) :
    (ofScan (above.over count scan)).models =
      (ofScan above).models ++ (ofScan scan).models.map (Model.renumber (below count)) := by
  simp [ofScan, Scan.over, filter_isModel_renumber, Function.comp_def, Block.model_renumber]

/-- Appended text leaves the models that are read before it. If it begins on a line of its own and
outside of every block, it is read as it is read alone, with its lines counted from there. -/
theorem ofSource_concatenated (first second : String) :
    (Document.ofSource first).models <+: (Document.ofSource (first ++ second)).models ∧
      (EndsLine first.toList → ¬ LeavesOpen (sourceLines first.toList) →
        (Scan.ofSource (first ++ second).toList).blocks =
            (Scan.ofSource first.toList).blocks ++
              (Scan.ofSource second.toList).blocks.map
                (Block.renumber fun number => number + (lines first.toList).length) ∧
          (Scan.ofSource (first ++ second).toList).diagnostics =
            (Scan.ofSource first.toList).diagnostics ++
              (Scan.ofSource second.toList).diagnostics.map
                (Diagnostic.renumber fun number => number + (lines first.toList).length) ∧
          (Document.ofSource (first ++ second)).models =
            (Document.ofSource first).models ++
              (Document.ofSource second).models.map
                (Model.renumber fun number => number + (lines first.toList).length)) := by
  refine ⟨models_isPrefix_append first second, fun hends hclosed => ?_⟩
  have hscan := Scan.ofSource_append hends hclosed second.toList
  rw [← String.toList_append] at hscan
  refine ⟨congrArg Scan.blocks hscan, congrArg Scan.diagnostics hscan, ?_⟩
  rw [Document.ofSource, hscan]
  exact Document.models_over ..

/-- A model and a stray line, which leave nothing open. -/
def shopSchema : String :=
  "model Shop \x7b\n  id Int @id\n\x7d\nstray\n"

/-- A model, and a block that is never closed. -/
def customerSchema : String :=
  "model Customer \x7b id Int @id\n\x7d\nenum Role \x7b\n"

theorem ofSource_concatenated_shop :
    EndsLine shopSchema.toList ∧ ¬ LeavesOpen (sourceLines shopSchema.toList) ∧
      (Scan.ofSource (shopSchema ++ customerSchema).toList).diagnostics =
        [⟨4, .strayLine, "stray"⟩, ⟨7, .unclosedBlock "enum" "Role", "enum Role \x7b"⟩] ∧
      (Document.ofSource (shopSchema ++ customerSchema)).models.map Model.name =
        ["Shop", "Customer"] ∧
      (Document.ofSource (shopSchema ++ customerSchema)).models.flatMap
        (fun model => model.fields.map Field.line) = [2, 5] := by
  have hends : EndsLine shopSchema.toList := by decide
  have hclosed : ¬ LeavesOpen (sourceLines shopSchema.toList) := by decide
  obtain ⟨-, hdiagnostics, hmodels⟩ :=
    (ofSource_concatenated shopSchema customerSchema).2 hends hclosed
  refine ⟨hends, hclosed, ?_, ?_, ?_⟩
  · rw [hdiagnostics]
    decide
  · rw [hmodels]
    decide
  · rw [hmodels]
    decide

end Scaffold.Schema
