import Scaffold.Proofs.Artifact.Lines

/-!
Imports and exports, read from the text of a file. A line that begins with `import` is read as the
names and the path that it holds (`Import.ofLine?`); a line that begins with `export class` is read
as the class that it declares (`exportedClass?`). For a file of plain parts (`ClassFile.IsPlain`)
both give back what the file was made of.
-/

namespace Scaffold.Artifact

open Text

/-! ### Reading a line -/

/-- The beginning of a line that imports. -/
def importMark : String := "import "

/-- The beginning of a line that exports a class. -/
def exportMark : String := "export class "

/-- The import on a line: names in braces, and a path in single quotes. -/
def Import.ofLine? (line : List Char) : Option Import :=
  (dropPrefix? (importMark.toList ++ ['{']) line).bind fun rest =>
    (cutAt? '}' rest).bind fun (names, behind) =>
      (dropPrefix? " from '".toList behind).bind fun path =>
        (cutAt? '\'' path).bind fun (path, ending) =>
          if ending = [';'] then
            some ⟨namesIn names, String.ofList path⟩
          else none

/-- The class that a line exports. -/
def exportedClass? (line : List Char) : Option String :=
  (dropPrefix? exportMark.toList line).map fun rest => String.ofList (rest.takeWhile isWordChar)

/-- The classes that a file exports. -/
def exportedClasses (content : String) : List String :=
  (lines content.toList).filterMap exportedClass?

/-- The imports of a file. -/
def importsOf (content : String) : List Import :=
  (lines content.toList).filterMap Import.ofLine?

/-- A path that can stand in single quotes on one line. -/
def IsPlainPath (path : String) : Prop :=
  '\'' ∉ path.toList ∧ OneLine path

instance (path : String) : Decidable (IsPlainPath path) :=
  inferInstanceAs (Decidable (_ ∧ _))

@[simp] theorem isPlainPath_append {first second : String} :
    IsPlainPath (first ++ second) ↔ IsPlainPath first ∧ IsPlainPath second := by
  simp only [IsPlainPath, String.toList_append, List.mem_append, not_or, oneLine_append]
  exact and_and_and_comm

/-- An import of words from a path that can be quoted. -/
structure Import.IsPlain (imported : Import) : Prop where
  names_ne_nil : imported.names ≠ []
  names : ∀ name ∈ imported.names, isWord name.toList = true
  path : IsPlainPath imported.path

theorem Import.toList_text (imported : Import) :
    imported.text.toList = importMark.toList ++ '{' :: ([' '] ++
      (commaSeparated imported.names).toList ++ [' '] ++ '}' :: (" from '".toList ++
        (imported.path.toList ++ '\'' :: [';']))) := by
  simp [text, braced, quoted, importMark]

/-- An import of words is on one line if its path is. -/
theorem Import.oneLine_text_of_words {imported : Import}
    (hnames : ∀ name ∈ imported.names, isWord name.toList = true) (hpath : OneLine imported.path) :
    OneLine imported.text := by
  have hlist := oneLine_commaSeparated fun name hname => oneLine_of_isWord (hnames name hname)
  simp +decide [Import.text, hlist, hpath]

theorem Import.IsPlain.oneLine_text {imported : Import} (h : imported.IsPlain) :
    OneLine imported.text :=
  oneLine_text_of_words h.names h.path.2

/-- Reading undoes writing for an import: a path without quotes ends where it is closed. -/
theorem Import.ofLine?_text {imported : Import} (h : imported.IsPlain) :
    ofLine? imported.text.toList = some imported := by
  have hbrace : '}' ∉ [' '] ++ (commaSeparated imported.names).toList ++ [' '] := by
    have : '}' ∉ (commaSeparated imported.names).toList :=
      not_mem_intercalate (by decide) fun name hname => not_mem_of_isWord (h.names name hname) (by decide)
    simp [this]
  have hmark : dropPrefix? (importMark.toList ++ ['{']) imported.text.toList =
      some ([' '] ++ (commaSeparated imported.names).toList ++ [' '] ++ '}' ::
        (" from '".toList ++ (imported.path.toList ++ '\'' :: [';']))) := by
    rw [dropPrefix?_eq_some_iff, toList_text]
    simp
  have hnames : namesIn ([' '] ++ (commaSeparated imported.names).toList ++ [' ']) =
      imported.names :=
    namesIn_commaSeparated h.names (by decide) (by decide)
  rw [ofLine?, hmark, Option.bind_some, cutAt?_append hbrace]
  simp only [Option.bind_some, dropPrefix?_append, cutAt?_append h.path.1, hnames, if_true,
    String.ofList_toList]

/-! ### Files of plain parts -/

/-- A decorator on lines of its own. -/
def Decorator.IsPlain : Decorator → Prop
  | .plain name argument => OneLine name ∧ OneLine argument
  | .table name rows => OneLine name ∧ ∀ row ∈ rows, OneLine row.1 ∧ ∀ item ∈ row.2, OneLine item

/-- A file whose class is what it looks like: nothing in it breaks a line. -/
structure ClassFile.HasPlainClass (file : ClassFile) : Prop where
  decorators : ∀ decorator ∈ file.decorators, decorator.IsPlain
  name : isWord file.name.toList = true
  heritage : OneLine file.heritage.text
  members : ∀ member ∈ file.members, ∀ line ∈ member.lines, line.IsInner

/-- A file all of whose parts are what they look like. -/
structure ClassFile.IsPlain (file : ClassFile) : Prop extends file.HasPlainClass where
  imports : ∀ imported ∈ file.imports, imported.IsPlain

/-- A line that neither imports nor exports. -/
structure Line.IsOther (line : Line) : Prop where
  text : OneLine line.text
  start : 0 < line.depth ∨ line.depth = 0 ∧ ∀ c ∈ line.text.toList.head?, c ≠ 'i' ∧ c ≠ 'e'

theorem Line.isOther_blank : Line.blank.IsOther :=
  ⟨by decide, Or.inr ⟨rfl, by decide⟩⟩

theorem Line.IsInner.isOther {line : Line} (h : line.IsInner) : line.IsOther :=
  ⟨h.text, Or.inl h.depth⟩

theorem Line.IsOther.head?_shown {line : Line} (h : line.IsOther) (indent : Indent) :
    ∀ c ∈ (line.shown indent).head?, c ≠ 'i' ∧ c ≠ 'e' := by
  rcases h.start with hdepth | ⟨hdepth, hstart⟩
  · intro c hc
    have hblank := line.isBlank_head_shown hdepth indent c hc
    constructor
    · rintro rfl
      exact absurd hblank (by decide)
    · rintro rfl
      exact absurd hblank (by decide)
  · obtain ⟨depth, text⟩ := line
    obtain rfl : depth = 0 := hdepth
    rwa [Line.shown_zero]

/-- A line does not begin with a mark whose first character is another. -/
theorem dropPrefix?_mark {mark : String} {line : List Char} {m : Char} {more : List Char}
    (hmark : mark.toList = m :: more) (h : ∀ c ∈ line.head?, c ≠ m) (rest : List Char) :
    dropPrefix? (mark.toList ++ rest) line = none := by
  rw [hmark, List.cons_append]
  cases line with
  | nil => rfl
  | cons c tail => exact dropPrefix?_eq_none (h c (by simp)).symm _ _

theorem Line.IsOther.import?_shown {line : Line} (h : line.IsOther) (indent : Indent) :
    Import.ofLine? (line.shown indent) = none := by
  rw [Import.ofLine?, dropPrefix?_mark rfl fun c hc => (h.head?_shown indent c hc).1]
  rfl

theorem Line.IsOther.exportedClass?_shown {line : Line} (h : line.IsOther) (indent : Indent) :
    exportedClass? (line.shown indent) = none := by
  have := @dropPrefix?_mark exportMark _ 'e' _ rfl (fun c hc => (h.head?_shown indent c hc).2) []
  rw [List.append_nil] at this
  rw [exportedClass?, this]
  rfl

@[simp] theorem Heritage.text_nothing : nothing.text = "" := rfl

@[simp] theorem Heritage.text_base (name entity : String) :
    (base name entity).text = " extends " ++ name ++ "<" ++ entity ++ ">" := rfl

@[simp] theorem Heritage.text_partialOf (name : String) :
    (partialOf name).text = " extends PartialType(" ++ name ++ ")" := rfl

/-- Behind the name of a class stands a space, whatever the class extends. -/
theorem Heritage.space_after (heritage : Heritage) (tail : String)
    (htail : ∃ rest, tail.toList = ' ' :: rest) :
    ∃ rest, (heritage.text ++ tail).toList = ' ' :: rest := by
  obtain ⟨rest, htail⟩ := htail
  cases heritage with
  | nothing => exact ⟨rest, by simpa using htail⟩
  | base name entity =>
    exact ⟨("extends " ++ name ++ "<" ++ entity ++ ">" ++ tail).toList, by simp⟩
  | partialOf name => exact ⟨("extends PartialType(" ++ name ++ ")" ++ tail).toList, by simp⟩

theorem eq_or_mem_of_mem_intersperse {α : Type} {separator a : α} {parts : List α}
    (h : a ∈ parts.intersperse separator) : a = separator ∨ a ∈ parts := by
  induction parts with
  | nil => simp at h
  | cons first rest ih =>
    cases rest with
    | nil => exact Or.inr (by simpa using h)
    | cons next more =>
      rw [List.intersperse_cons_cons] at h
      rcases List.mem_cons.mp h with rfl | h
      · exact Or.inr (List.mem_cons_self ..)
      · rcases List.mem_cons.mp h with rfl | h
        · exact Or.inl rfl
        · exact (ih h).imp_right (List.mem_cons_of_mem _)

namespace ClassFile

/-- The line that declares the class. -/
def exportLine (file : ClassFile) : Line :=
  ⟨0, exportMark ++ file.name ++ file.heritage.text ++
    if file.members.isEmpty then " \x7b\x7d" else " \x7b"⟩

/-- The lines between the imports and the class. -/
def above (file : ClassFile) : List Line :=
  Line.blank :: file.decorators.flatMap Decorator.lines

/-- The lines behind the head of the class. -/
def below (file : ClassFile) : List Line :=
  if file.members.isEmpty then []
  else (List.intersperse [Line.blank] (file.members.map Member.lines)).flatten ++ [closing 0]

/-- A file is its imports, the head of its class, and other lines. -/
theorem lines_eq (file : ClassFile) :
    file.lines = file.imports.map (fun imported => ⟨0, imported.text⟩) ++
      (file.above ++ file.exportLine :: file.below) := by
  unfold lines classLines above below exportLine
  cases file.members.isEmpty with
  | true => simp [exportMark, String.append_assoc]
  | false => simp [exportMark, opening, String.append_assoc]

theorem isOther_above {file : ClassFile} (h : file.HasPlainClass) : ∀ line ∈ file.above, line.IsOther := by
  intro line hline
  rcases List.mem_cons.mp hline with rfl | hline
  · exact Line.isOther_blank
  · obtain ⟨decorator, hdecorator, hline⟩ := List.mem_flatMap.mp hline
    have hplain := h.decorators decorator hdecorator
    cases decorator with
    | plain name argument =>
      obtain ⟨hname, hargument⟩ := hplain
      obtain rfl := List.mem_singleton.mp hline
      exact ⟨by simp +decide [hname, hargument], Or.inr ⟨rfl, by simp⟩⟩
    | table name rows =>
      obtain ⟨hname, hrows⟩ := hplain
      simp only [Decorator.lines, List.mem_append, List.mem_cons, List.mem_map, List.not_mem_nil,
        or_false] at hline
      rcases hline with (rfl | ⟨⟨key, items⟩, hrow, rfl⟩) | rfl
      · exact ⟨by simp +decide [hname], Or.inr ⟨rfl, by simp⟩⟩
      · obtain ⟨hkey, hitems⟩ := hrows (key, items) hrow
        have hlist := oneLine_commaSeparated hitems
        exact ⟨by simp +decide [hkey, hlist], Or.inl Nat.one_pos⟩
      · exact ⟨by decide, Or.inr ⟨rfl, by decide⟩⟩

/-- No line of a class can be taken for an import or for the head of a class. -/
theorem isOther_below {file : ClassFile} (h : file.HasPlainClass) : ∀ line ∈ file.below, line.IsOther := by
  intro line hline
  unfold below at hline
  split at hline
  · cases hline
  · rcases List.mem_append.mp hline with hline | hline
    · obtain ⟨block, hblock, hline⟩ := List.mem_flatten.mp hline
      rcases eq_or_mem_of_mem_intersperse hblock with rfl | hblock
      · obtain rfl := List.mem_singleton.mp hline
        exact Line.isOther_blank
      · obtain ⟨member, hmember, rfl⟩ := List.mem_map.mp hblock
        exact (h.members member hmember line hline).isOther
    · obtain rfl := List.mem_singleton.mp hline
      exact ⟨by decide, Or.inr ⟨rfl, by decide⟩⟩

theorem oneLine_exportLine {file : ClassFile} (h : file.HasPlainClass) : OneLine file.exportLine.text := by
  have hname := oneLine_of_isWord h.name
  have hheritage := h.heritage
  unfold exportLine exportMark
  split
  · simp +decide [hname, hheritage]
  · simp +decide [hname, hheritage]

/-- The text of a file reads as its lines, if no import breaks one. -/
theorem lines_render_of_oneLine {file : ClassFile} (h : file.HasPlainClass)
    (himports : ∀ imported ∈ file.imports, OneLine imported.text) (indent : Indent) :
    Text.lines (file.render indent).toList = file.lines.map (Line.shown indent) := by
  refine lines_renderLines indent fun line hline => ?_
  rw [lines_eq] at hline
  simp only [List.mem_append, List.mem_map, List.mem_cons] at hline
  rcases hline with ⟨imported, himported, rfl⟩ | hline | rfl | hline
  · exact himports imported himported
  · exact (isOther_above h line hline).text
  · exact oneLine_exportLine h
  · exact (isOther_below h line hline).text

/-- The text of a file reads as its imports, the head of its class, and other lines. -/
theorem lines_render {file : ClassFile} (h : file.IsPlain) (indent : Indent) :
    Text.lines (file.render indent).toList =
      (file.imports.map fun imported => imported.text.toList) ++
        (file.above.map (Line.shown indent) ++
          file.exportLine.text.toList :: file.below.map (Line.shown indent)) := by
  rw [lines_render_of_oneLine h.toHasPlainClass
    (fun imported himported => (h.imports imported himported).oneLine_text), lines_eq]
  simp [exportLine, Function.comp_def]

/-- A line that begins like an import is one of the imports. -/
theorem exists_import_of_prefix {file : ClassFile} (h : file.IsPlain) {indent : Indent}
    {line : List Char} (hline : line ∈ Text.lines (file.render indent).toList)
    (hmark : importMark.toList <+: line) :
    ∃ imported ∈ file.imports, line = imported.text.toList := by
  obtain ⟨rest, rfl⟩ := hmark
  have hother : ∀ content : List Line, (∀ other ∈ content, other.IsOther) →
      importMark.toList ++ rest ∉ content.map (Line.shown indent) := by
    intro content hcontent mem
    obtain ⟨other, hmem, heq⟩ := List.mem_map.mp mem
    have := (hcontent other hmem).head?_shown indent 'i' (by rw [heq]; rfl)
    exact this.1 rfl
  rw [lines_render h] at hline
  simp only [List.mem_append, List.mem_cons] at hline
  rcases hline with hline | hline | hline | hline
  · obtain ⟨imported, himported, heq⟩ := List.mem_map.mp hline
    exact ⟨imported, himported, heq.symm⟩
  · exact absurd hline (hother _ (isOther_above h.toHasPlainClass))
  · simp [exportLine, exportMark, importMark] at hline
  · exact absurd hline (hother _ (isOther_below h.toHasPlainClass))

/-- The imports that a file is read to have are those that it was made with. -/
theorem importsOf_render {file : ClassFile} (h : file.IsPlain) (indent : Indent) :
    importsOf (file.render indent) = file.imports := by
  have hother : ∀ content : List Line, (∀ line ∈ content, line.IsOther) →
      (content.map (Line.shown indent)).filterMap Import.ofLine? = [] := by
    intro content hcontent
    refine List.filterMap_eq_nil_iff.mpr fun text htext => ?_
    obtain ⟨line, hline, rfl⟩ := List.mem_map.mp htext
    exact (hcontent line hline).import?_shown indent
  have hexport : Import.ofLine? file.exportLine.text.toList = none := by
    have hstart : ∀ c ∈ file.exportLine.text.toList.head?, c ≠ 'i' := by
      simp [exportLine, exportMark]
    rw [Import.ofLine?, dropPrefix?_mark rfl hstart]
    rfl
  have himports : (file.imports.map fun imported => imported.text.toList).filterMap
      Import.ofLine? = file.imports :=
    filterMap_map_eq_self fun imported himported => Import.ofLine?_text (h.imports imported himported)
  rw [importsOf, lines_render h, List.filterMap_append, List.filterMap_append,
    List.filterMap_cons_none hexport, himports, hother _ (isOther_above h.toHasPlainClass),
    hother _ (isOther_below h.toHasPlainClass)]
  simp

theorem exportedClass?_exportLine {file : ClassFile} (h : file.HasPlainClass) :
    exportedClass? file.exportLine.text.toList = some file.name := by
  obtain ⟨rest, hrest⟩ := file.heritage.space_after
    (if file.members.isEmpty then " \x7b\x7d" else " \x7b") (by
      cases file.members.isEmpty with
      | true => exact ⟨_, rfl⟩
      | false => exact ⟨_, rfl⟩)
  have htext : file.exportLine.text.toList =
      exportMark.toList ++ (file.name.toList ++ ' ' :: rest) := by
    rw [← hrest]
    simp [exportLine]
  have hspace : ∀ c ∈ (' ' :: rest).head?, isWordChar c = false := by
    intro c hc
    obtain rfl := Option.mem_some_iff.mp hc
    rfl
  rw [exportedClass?, htext, dropPrefix?_append, Option.map_some,
    takeWhile_append_stop (isWord_iff.mp h.name).2 hspace, String.ofList_toList]

/-- Lines that do not export are read to export nothing. -/
theorem filterMap_exportedClass?_shown (indent : Indent) {content : List Line}
    (h : ∀ line ∈ content, line.IsOther) :
    (content.map (Line.shown indent)).filterMap exportedClass? = [] := by
  refine List.filterMap_eq_nil_iff.mpr fun text htext => ?_
  obtain ⟨line, hline, rfl⟩ := List.mem_map.mp htext
  exact (h line hline).exportedClass?_shown indent

/-- Imports are read to export nothing. -/
theorem filterMap_exportedClass?_imports (file : ClassFile) :
    (file.imports.map fun imported => imported.text.toList).filterMap exportedClass? = [] := by
  refine List.filterMap_eq_nil_iff.mpr fun text htext => ?_
  obtain ⟨imported, _, rfl⟩ := List.mem_map.mp htext
  have := @dropPrefix?_mark exportMark imported.text.toList 'e' _ rfl
    (by simp [Import.text]) []
  rw [List.append_nil] at this
  rw [exportedClass?, this]
  rfl

/-- The one class that a file is read to export is its own. -/
theorem exportedClasses_render {file : ClassFile} (h : file.IsPlain) (indent : Indent) :
    exportedClasses (file.render indent) = [file.name] := by
  rw [exportedClasses, lines_render h, List.filterMap_append, List.filterMap_append,
    List.filterMap_cons_some (exportedClass?_exportLine h.toHasPlainClass),
    filterMap_exportedClass?_imports,
    filterMap_exportedClass?_shown indent (isOther_above h.toHasPlainClass),
    filterMap_exportedClass?_shown indent (isOther_below h.toHasPlainClass)]
  simp

end ClassFile

end Scaffold.Artifact
