import Scaffold.Proofs.Schema.Entry

/-!
Reading back what was written down. Reading the source of a sheet gives exactly the models that the
sheet means, and nothing to report (`ofSource_source`).

`Brings` is what a part of the source contributes. The block of a model brings the model
(`brings_model`), what may stand between two models brings nothing (`brings_interlude`), and parts
are put together by `Brings.append`.
-/

namespace Scaffold.Schema

open Text

/-! ### Lines of a body -/

/-- A text that can be a line in a body: it is trimmed, it is there, it is one line, and it does
not close the block. -/
structure IsBodyLine (text : List Char) : Prop where
  trimmed : IsTrimmed text
  ne_nil : text ≠ []
  no_newline : '\n' ∉ text
  no_close : closesBlock text = false

theorem Attribute.quiet_text (given : Attribute) :
    ∀ c ∈ given.text, isQuiet c = true ∧ c ≠ '\n' := by
  cases given with
  | id => decide
  | unique => decide
  | default value hvalue =>
    intro c hc
    have hopen : ∀ d ∈ "@default(".toList, isQuiet d = true ∧ d ≠ '\n' := by decide
    rw [text_default, List.mem_append, List.mem_append, List.mem_singleton] at hc
    rcases hc with (hc | hc) | rfl
    · exact hopen c hc
    · exact isQuiet_of_isWordChar (hvalue c hc)
    · decide

theorem Attribute.last_text (given : Attribute) :
    ∀ c ∈ given.text.getLast?, isBlank c = false := by
  cases given with
  | id => decide
  | unique => decide
  | default value hvalue =>
    rw [text_default, List.getLast?_concat]
    decide

/-- Drafts have no strings or comments in their attributes, so nothing in the text of a field can
hide or close anything. -/
theorem FieldDraft.quiet_text (draft : FieldDraft) :
    ∀ c ∈ draft.text, isQuiet c = true ∧ c ≠ '\n' := by
  intro c hc
  simp only [text, markersText, attributesText, List.mem_append, List.mem_cons,
    List.mem_flatMap] at hc
  rcases hc with hc | rfl | (hc | ⟨marker, _, hc⟩) | ⟨given, _, rfl | hc⟩
  · exact isQuiet_of_isWordChar ((isWord_iff.mp draft.name.isWord_text).2 c hc)
  · decide
  · exact isQuiet_of_isWordChar ((isWord_iff.mp draft.type.isWord_text).2 c hc)
  · revert c
    cases marker with
    | optional => decide
    | array => decide
  · decide
  · exact given.quiet_text c hc

theorem FieldDraft.last_text (draft : FieldDraft) :
    ∀ c ∈ draft.text.getLast?, isBlank c = false := by
  have hmarker : ∀ marker ∈ draft.markers, ∀ c ∈ marker.text.getLast?, isBlank c = false := by
    intro marker _
    cases marker with
    | optional => decide
    | array => decide
  have hattribute : ∀ given ∈ draft.attributes,
      ∀ c ∈ (' ' :: given.text).getLast?, isBlank c = false := by
    intro given _
    obtain ⟨name, htext, _⟩ := given.exists_text
    rw [List.getLast?_cons_of_ne_nil (by simp [htext])]
    exact given.last_text
  have hspace : draft.text = draft.name.text ++ [' '] ++ draft.type.text ++ draft.markersText ++
      draft.attributesText := by
    simp [text]
  rw [hspace]
  refine last_append (last_append ?_ (last_flatMap hmarker)) (last_flatMap hattribute)
  intro c hc
  have hne := (isWord_iff.mp draft.type.isWord_text).1
  rw [getLast?_append_of_ne_nil hne] at hc
  exact (isTrimmed_of_isWord draft.type.isWord_text).last c hc

/-- The text of a field begins with its name and holds no brace. -/
theorem FieldDraft.isBodyLine_text (draft : FieldDraft) : IsBodyLine draft.text := by
  obtain ⟨c, rest, htext, hc⟩ := draft.written.exists_cons_text
  rw [draft.text_written] at htext
  constructor
  · refine ⟨?_, draft.last_text⟩
    simpa [htext] using isBlank_eq_false_of_isWordChar hc
  · simp [htext]
  · exact fun mem => (draft.quiet_text _ mem).2 rfl
  · exact closesBlock_quiet fun d hd => (draft.quiet_text d hd).1

/-- Quiet text around the list of fields is quiet with it. -/
theorem IdentityDraft.quiet_around_list (draft : IdentityDraft) {front back : List Char}
    (hfront : ∀ c ∈ front, isQuiet c = true ∧ c ≠ '\n')
    (hback : ∀ c ∈ back, isQuiet c = true ∧ c ≠ '\n') :
    ∀ c ∈ front ++ draft.list ++ back, isQuiet c = true ∧ c ≠ '\n' := by
  intro c hc
  rw [List.mem_append, List.mem_append] at hc
  rcases hc with (hc | hc) | hc
  · exact hfront c hc
  · rcases mem_list hc with rfl | rfl | hc
    · decide
    · decide
    · exact isQuiet_of_isWordChar hc
  · exact hback c hc

/-- The list is quiet. A key is not, but it stands in quotes that end where it ends. -/
theorem IdentityDraft.isBodyLine_text (draft : IdentityDraft) : IsBodyLine draft.text := by
  cases hkey : draft.key with
  | none =>
    have htext : draft.text = "@@id([".toList ++ draft.list ++ "])".toList := by rw [text, hkey]
    have ends := @isTrimmed_of_ends '@' ')' ("@id([".toList ++ draft.list ++ [']'])
      (by decide) (by decide)
    have quiet := @draft.quiet_around_list "@@id([".toList "])".toList (by decide) (by decide)
    rw [htext]
    constructor
    · simpa using ends
    · simp
    · exact fun mem => (quiet _ mem).2 rfl
    · exact closesBlock_quiet fun c hc => (quiet c hc).1
  | some key =>
    -- The key is a string: what it holds closes nothing, whatever it is.
    have htext : draft.text = ("@@id(fields: [".toList ++ draft.list ++ "], name: ".toList) ++
        ('"' :: key.text ++ '"' :: [')']) := by
      rw [text, hkey]
      simp
    have ends := @isTrimmed_of_ends '@' ')'
      ("@id(fields: [".toList ++ draft.list ++ "], name: \"".toList ++ key.text ++ ['"'])
      (by decide) (by decide)
    have quiet := @draft.quiet_around_list "@@id(fields: [".toList "], name: ".toList
      (by decide) (by decide)
    rw [htext]
    constructor
    · simpa using ends
    · simp
    · intro mem
      rcases List.mem_append.mp mem with mem | mem
      · exact (quiet _ mem).2 rfl
      · simp [key.no_newline] at mem
    · rw [closesBlock_quiet_append fun c hc => (quiet c hc).1,
        closesBlock_string_append key.no_quote key.no_backslash]
      rfl

theorem ModelDraft.isBodyLine_body (draft : ModelDraft) : ∀ text ∈ draft.body, IsBodyLine text := by
  intro text htext
  rcases List.mem_append.mp htext with htext | htext
  · obtain ⟨field, _, rfl⟩ := List.mem_map.mp htext
    exact field.isBodyLine_text
  · obtain ⟨identity, _, rfl⟩ := List.mem_map.mp htext
    exact identity.isBodyLine_text

/-! ### Contributions -/

/-- Lines that leave no block open, report nothing and declare the given models. -/
structure Brings (content : List SourceLine) (models : List Model) : Prop where
  closed : (walk none content).1 = none
  document : Document.ofScan (Scan.ofLines content) = ⟨models, []⟩

theorem Brings.nil : Brings [] [] :=
  ⟨rfl, rfl⟩

/-- Lines with what they contribute are put together by putting the contributions together. -/
theorem Brings.append {first second : List SourceLine} {these those : List Model}
    (hfirst : Brings first these) (hsecond : Brings second those) :
    Brings (first ++ second) (these ++ those) := by
  obtain ⟨hclosed, hdocument⟩ := hfirst
  obtain ⟨hlast, hrest⟩ := hsecond
  simp only [Document.ofScan, Document.mk.injEq, List.append_eq_nil_iff] at hdocument hrest
  constructor
  · rw [walk_append, hclosed]
    exact hlast
  · rw [Scan.ofLines_append hclosed]
    simp [Document.ofScan, hdocument, hrest]

/-- A line that opens no block and is not reported contributes nothing. -/
theorem brings_silent {line : SourceLine} (h : step none line = (none, none)) :
    Brings [line] [] := by
  constructor
  · simp [walk, h]
  · simp [Scan.ofLines, walk, h, Document.ofScan]

/-- Lines that complete one block contribute what the block declares. -/
theorem brings_block {content : List SourceLine} {block : Block}
    (h : walk none content = (none, [.complete block])) (hproblems : block.isModel = true →
      block.diagnostics = []) :
    Brings content (if block.isModel then [block.model] else []) := by
  constructor
  · rw [h]
  · cases hmodel : block.isModel with
    | true =>
      simp [Scan.ofLines, h, Document.ofScan, Finding.block?, Finding.diagnostic?, hmodel,
        hproblems hmodel]
    | false => simp [Scan.ofLines, h, Document.ofScan, Finding.block?, Finding.diagnostic?, hmodel]

/-! ### Models -/

/-- The entries of the fields of a draft are these fields. -/
theorem entries_fields (fields : List FieldDraft) (start : Nat) :
    (numbered start (fields.map FieldDraft.text)).map Entry.ofLine =
      (fields.zipIdx start).map fun (field, number) => .declared (field.field number) := by
  induction fields generalizing start with
  | nil => rfl
  | cons field rest ih =>
    have htrim := trim_eq_self field.isBodyLine_text.trimmed
    simp [htrim, Entry.ofLine_field, ih]

/-- Fields in front of other lines are reported of nowhere, and do not count as an identity. -/
theorem bodyDiagnostics_fields (model : String) (identified : Bool) (fields : List FieldDraft)
    (start : Nat) (content : List SourceLine) :
    bodyDiagnostics model identified (numbered start (fields.map FieldDraft.text) ++ content) =
      bodyDiagnostics model identified content := by
  induction fields generalizing start with
  | nil => rfl
  | cons field rest ih =>
    have htrim := trim_eq_self field.isBodyLine_text.trimmed
    simp [bodyDiagnostics, htrim, Entry.ofLine_field, Entry.problem?, Entry.compositeId?, ih]

/-- The block that the lines of a draft make, if its header has a given number. -/
def ModelDraft.block (draft : ModelDraft) (start : Nat) : Block :=
  ⟨"model", draft.name.string, start, numbered (start + 1) draft.body⟩

/-- The entries of a draft: its fields, and then its composite identity. -/
theorem ModelDraft.entries_body (draft : ModelDraft) (start : Nat) :
    (numbered start draft.body).map Entry.ofLine =
      ((draft.fields.zipIdx start).map fun (field, number) => .declared (field.field number)) ++
        draft.identity.toList.map fun identity => .identity (some identity.compositeId) := by
  rw [body, numbered_append, List.map_append, entries_fields]
  cases draft.identity with
  | none => rfl
  | some identity =>
    have htrim := trim_eq_self identity.isBodyLine_text.trimmed
    simp [htrim, Entry.ofLine_identity]

/-- Reading the block of a draft gives the model that the draft means, fields in order. -/
theorem ModelDraft.model_block (draft : ModelDraft) (start : Nat) :
    (draft.block start).model = draft.model start := by
  have hentries := draft.entries_body (start + 1)
  have hfields : ∀ fields : List (FieldDraft × Nat),
      (fields.map fun (field, number) => Entry.declared (field.field number)).filterMap
        Entry.field? = fields.map fun (field, number) => field.field number := by
    intro fields
    rw [List.filterMap_map, ← List.filterMap_eq_map]
    rfl
  have hidentity : ∀ fields : List (FieldDraft × Nat),
      (fields.map fun (field, number) => Entry.declared (field.field number)).findSome?
        Entry.compositeId? = none := by
    intro fields
    refine List.findSome?_eq_none_iff.mpr fun entry hentry => ?_
    obtain ⟨_, _, rfl⟩ := List.mem_map.mp hentry
    rfl
  simp only [Block.model, block, hentries, List.filterMap_append, List.findSome?_append, hfields,
    hidentity]
  cases hdraft : draft.identity with
  | none => simp [model, hdraft]
  | some identity => simp [model, hdraft, Entry.field?, Entry.compositeId?]

theorem ModelDraft.diagnostics_block (draft : ModelDraft) (start : Nat) :
    (draft.block start).diagnostics = [] := by
  unfold Block.diagnostics block body
  rw [numbered_append, bodyDiagnostics_fields]
  cases draft.identity with
  | none => rfl
  | some identity =>
    have htrim := trim_eq_self identity.isBodyLine_text.trimmed
    simp [bodyDiagnostics, htrim, Entry.ofLine_identity, Entry.problem?]

/-- The header opens the block, each line of the body is kept in it, and the brace completes it. -/
theorem walk_model (margin : Margin) (draft : ModelDraft) (start : Nat) :
    walk none (numbered start (draft.lines margin)) = (none, [.complete (draft.block start)]) := by
  have htext : trim ("model ".toList ++ draft.name.text ++ " \x7b".toList) =
      "model".toList ++ [' '] ++ draft.name.text ++ [' '] ++ '{' :: [] := by
    have := @isTrimmed_of_ends 'm' '{' ("odel ".toList ++ draft.name.text ++ [' '])
      (by decide) (by decide)
    simpa using trim_eq_self this
  have hheader : header? ⟨start, trim ("model ".toList ++ draft.name.text ++ " \x7b".toList)⟩ =
      some (⟨"model", draft.name.string, start, []⟩, []) := by
    rw [htext]
    exact header?_eq_some (by decide) isBlankText_space (by simp) draft.name.isWord_text
      isBlankText_space start []
  have hbody : ∀ line ∈ numbered (start + 1) draft.body, IsBodyLine line.text := by
    intro line hline
    obtain ⟨text, hmem, htext⟩ := text_of_mem_numbered hline
    have hdraft := draft.isBodyLine_body text hmem
    rwa [htext, trim_eq_self hdraft.trimmed]
  have hopen : ∀ line ∈ (⟨start, []⟩ : SourceLine) :: numbered (start + 1) draft.body,
      closesBlock line.text = false := by
    intro line hline
    rcases List.mem_cons.mp hline with rfl | hline
    · rfl
    · exact (hbody line hline).no_close
  have hkeep : (numbered (start + 1) draft.body).filter (fun line => !line.text.isEmpty) =
      numbered (start + 1) draft.body :=
    List.filter_eq_self.mpr fun line hline => by simpa using (hbody line hline).ne_nil
  have hlast : cutAtBrace? .plain (trim ['}']) = some ([], []) := rfl
  rw [ModelDraft.lines, numbered_append, numbered_cons, List.cons_append,
    walk_of_header? hheader, numbered_margin margin.isBlank_text, ← List.cons_append]
  refine (walk_block hopen hlast _).trans ?_
  simp [Block.keepAll, Block.keep, hkeep, ModelDraft.block]

/-- The block of a draft contributes its model and nothing besides. -/
theorem brings_model (margin : Margin) (draft : ModelDraft) (start : Nat) :
    Brings (numbered start (draft.lines margin)) [draft.model start] := by
  have := brings_block (walk_model margin draft start) fun _ => draft.diagnostics_block start
  rwa [ModelDraft.model_block] at this

/-! ### Interludes -/

theorem ForeignBlock.header?_header (block : ForeignBlock) (start : Nat) (rest : List Char) :
    header? ⟨start, trim (block.header ++ rest)⟩ =
      some (⟨block.keyword.string, block.name.string, start, []⟩, trimRight rest) := by
  have htrim : trim (block.header ++ rest) =
      block.keyword.text ++ block.gap.text ++ block.name.text ++ block.pad.text ++
        '{' :: trimRight rest := by
    have hhead : ∀ c ∈ (block.keyword.text ++ block.gap.text ++ block.name.text ++
        block.pad.text ++ '{' :: rest).head?, isBlank c = false := by
      obtain ⟨c, more, hfirst⟩ :=
        List.exists_cons_of_ne_nil (isWord_iff.mp block.keyword.isWord_text).1
      have hc := isBlank_eq_false_of_isWord block.keyword.isWord_text c (by simp [hfirst])
      simpa [hfirst] using hc
    rw [header, List.append_assoc, List.append_assoc, trim_append_left block.margin.isBlank_text,
      List.singleton_append, trim, trimLeft_eq_self hhead, trimRight_append_cons (by decide)]
  rw [htrim]
  exact header?_eq_some block.keyword.isWord_text block.gap.isBlank_text block.gap_ne_nil
    block.name.isWord_text block.pad.isBlank_text start (trimRight rest)

/-- The walk through a foreign block goes over its fragments, the first one included. -/
theorem ForeignBlock.walk_lines (block : ForeignBlock) (start : Nat) :
    walk none (numbered start block.lines) =
      walk (some ⟨block.keyword.string, block.name.string, start, []⟩)
        (numbered start (block.opened.map Fragment.text ++ [block.last.text])) := by
  rw [lines]
  cases hcontent : block.opened.map Fragment.text ++ [block.last.text] with
  | nil => simp at hcontent
  | cons first more =>
    rw [List.modifyHead_cons, numbered_cons, walk_of_header? (block.header?_header start first),
      trim_trimRight, numbered_cons]

theorem brings_foreign (block : ForeignBlock) (start : Nat) :
    Brings (numbered start block.lines) [] := by
  have hopen : ∀ line ∈ numbered start (block.opened.map Fragment.text),
      closesBlock line.text = false := by
    intro line hline
    obtain ⟨text, hmem, htext⟩ := text_of_mem_numbered hline
    obtain ⟨fragment, hfragment, rfl⟩ := List.mem_map.mp hmem
    rw [htext, block.not_closes fragment hfragment]
  obtain ⟨⟨before, after⟩, hcut⟩ := Option.isSome_iff_exists.mp block.closes
  have hkeyword : block.keyword.string ≠ "model" := by
    intro h
    exact block.keyword_ne (by simpa [Name.string] using congrArg String.toList h)
  have hwalk := block.walk_lines start
  rw [numbered_append, numbered_cons, numbered_nil, walk_block hopen hcut] at hwalk
  have hmodel : ∀ content last, ((Block.keepAll
      ⟨block.keyword.string, block.name.string, start, []⟩ content).keep last).isModel = false := by
    intro content last
    unfold Block.keep
    split
    · simpa [Block.isModel, Block.keepAll] using hkeyword
    · simpa [Block.isModel, Block.keepAll, Block.push] using hkeyword
  have := brings_block hwalk (by simp [hmodel])
  simpa [hmodel] using this

theorem brings_interlude (between : Interlude) (start : Nat) :
    Brings (numbered start between.lines) [] := by
  cases between with
  | blank margin =>
    have htrim := trim_eq_nil margin.isBlank_text
    exact brings_silent (by simp [htrim, step])
  | comment margin remark =>
    have htrim : trim (margin.text ++ "//".toList ++ remark.text) =
        '/' :: '/' :: trimRight remark.text := by
      rw [List.append_assoc, trim_append_left margin.isBlank_text]
      exact trimRight_append_cons (by decide) ['/'] remark.text
    have hstep : step none ⟨start, trim (margin.text ++ "//".toList ++ remark.text)⟩ =
        (none, none) := by
      rw [htrim]
      rfl
    exact brings_silent hstep
  | block foreign => exact brings_foreign foreign start

/-! ### Sheets -/

theorem brings_sheet (margin : Margin) (sheet : Sheet) (start : Nat) :
    Brings (numbered start (sheet.lines margin)) (sheet.models margin start) := by
  induction sheet generalizing start with
  | nil => exact Brings.nil
  | cons passage rest ih =>
    have hpassage : Brings (numbered start (passage.lines margin)) (passage.models start) := by
      cases passage with
      | model draft => exact brings_model margin draft start
      | interlude between => exact brings_interlude between start
    rw [Sheet.lines, List.flatMap_cons, numbered_append]
    exact hpassage.append (ih _)

theorem ForeignBlock.no_newline (block : ForeignBlock) : ∀ line ∈ block.lines, '\n' ∉ line := by
  have hword : ∀ name : Name, '\n' ∉ name.text :=
    fun name => not_mem_of_isWord name.isWord_text (by decide)
  have hheader : '\n' ∉ block.header := by
    simp [header, hword, block.margin.no_newline, block.gap.no_newline, block.pad.no_newline]
  have hfragment : ∀ text ∈ block.opened.map Fragment.text ++ [block.last.text], '\n' ∉ text := by
    intro text htext
    rcases List.mem_append.mp htext with htext | htext
    · obtain ⟨fragment, _, rfl⟩ := List.mem_map.mp htext
      exact fragment.no_newline
    · obtain rfl := List.mem_singleton.mp htext
      exact block.last.no_newline
  intro line hline
  rw [lines] at hline
  cases hcontent : block.opened.map Fragment.text ++ [block.last.text] with
  | nil => simp at hcontent
  | cons first more =>
    rw [hcontent] at hline hfragment
    -- The header shares its line with the first fragment.
    rcases List.mem_cons.mp hline with rfl | hline
    · simp [hheader, hfragment first (List.mem_cons_self ..)]
    · exact hfragment line (List.mem_cons_of_mem _ hline)

/-- No line of a passage holds a line feed. -/
theorem Passage.no_newline (margin : Margin) (passage : Passage) :
    ∀ line ∈ passage.lines margin, '\n' ∉ line := by
  intro line hline
  cases passage with
  | model draft =>
    have hname : '\n' ∉ draft.name.text := not_mem_of_isWord draft.name.isWord_text (by decide)
    simp only [lines, ModelDraft.lines, List.mem_append, List.mem_cons, List.mem_map,
      List.not_mem_nil, or_false] at hline
    rcases hline with (rfl | ⟨text, htext, rfl⟩) | rfl
    · simp [hname]
    · simp [margin.no_newline, (draft.isBodyLine_body text htext).no_newline]
    · decide
  | interlude between =>
    cases between with
    | blank margin =>
      obtain rfl := List.mem_singleton.mp hline
      exact margin.no_newline
    | comment margin remark =>
      obtain rfl := List.mem_singleton.mp hline
      simp [margin.no_newline, remark.no_newline]
    | block foreign => exact foreign.no_newline line hline

/-- Reading the source of a sheet gives exactly its models, in order, and no diagnostics. -/
theorem ofSource_source (margin : Margin) (sheet : Sheet) :
    Document.ofSource (sheet.source margin) = ⟨sheet.models margin 1, []⟩ := by
  have hlines : ∀ line ∈ sheet.lines margin, '\n' ∉ line := by
    intro line hline
    obtain ⟨passage, _, hline⟩ := List.mem_flatMap.mp hline
    exact passage.no_newline margin line hline
  rw [Document.ofSource, Sheet.source, String.toList_ofList, Scan.ofSource,
    sourceLines_eq_numbered, lines_unlines hlines]
  exact (brings_sheet margin sheet 1).document

end Scaffold.Schema
