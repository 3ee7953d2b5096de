import Mathlib.Data.List.Forall2
import Scaffold.Proofs.Artifact.Emitted

/-!
How far each option reaches. The classes of a module are made from the model, the import paths and,
in the object that creates an entity, the optional fields; indentation and extension come in when
they are written down. So two runs that differ in one option differ in the part of the files that
the option is about (`options_separate`).
-/

namespace Scaffold.Artifact

open Text
open Schema (Document Model)

/-! ### What two files have in common -/

/-- Files that differ in their extension alone. -/
structure File.SameUpToExtension (first second : Options) (one other : File) : Prop where
  kind : one.kind = other.kind
  path : ∃ bare, one.path = bare ++ "." ++ first.extension ∧
    other.path = bare ++ "." ++ second.extension
  content : one.content = other.content

/-- Files that differ in their indentation alone. -/
structure File.SameUpToIndent (one other : File) : Prop where
  kind : one.kind = other.kind
  path : one.path = other.path
  content : (lines one.content.toList).map trimLeft = (lines other.content.toList).map trimLeft

/-- Files that differ, if at all, in the content of the object that creates an entity. -/
structure File.SameUpToCreateDto (one other : File) : Prop where
  kind : one.kind = other.kind
  path : one.path = other.path
  content : one.kind ≠ .createDto → one.content = other.content

/-- Lines that import the same names. -/
def ImportSameNames (one other : List Char) : Prop :=
  ∃ names path otherPath, one = (Import.mk names path).text.toList ∧
    other = (Import.mk names otherPath).text.toList

/-- Files that differ, if at all, in the paths that they import from. -/
structure File.SameUpToImports (one other : File) : Prop where
  kind : one.kind = other.kind
  path : one.path = other.path
  content : List.Forall₂ (fun line otherLine => line = otherLine ∨ ImportSameNames line otherLine)
    (lines one.content.toList) (lines other.content.toList)

/-! ### What the classes are made from -/

section Classes

variable (options : Options) (model : Model) (kind : Kind)

theorem classFile_extension (extension : String) :
    classFile { options with extension } model kind = classFile options model kind := by
  cases kind <;> rfl

theorem classFile_indent (indent : Indent) :
    classFile { options with indent } model kind = classFile options model kind := by
  cases kind <;> rfl

variable {kind} in
theorem classFile_optionality (h : kind ≠ .createDto) (optionality : Optionality) :
    classFile { options with optionality } model kind = classFile options model kind := by
  cases kind with
  | createDto => exact absurd rfl h
  | updateDto | repository | service | controller | wiring => rfl

variable {model} in
/-- The object that creates an entity depends on what is said of the fields of the payload. -/
theorem createDto_optionality {optionality : Optionality}
    (h : ∀ field ∈ payload model, optionality.forces model.name field.name =
      options.optionality.forces model.name field.name) :
    createDto { options with optionality } model = createDto options model := by
  have hmembers : ∀ field ∈ payload model,
      payloadProperty { options with optionality } model field =
        payloadProperty options model field := by
    intro field hfield
    unfold payloadProperty mayBeLeftOut
    simp only [h field hfield]
  unfold createDto
  congr 1
  exact List.map_congr_left fun field hfield => congrArg Member.property (hmembers field hfield)

/-- Beside their imports, classes do not depend on the import paths. -/
theorem classFile_imports (imports : ImportPaths) :
    classFile { options with imports } model kind =
      { classFile options model kind with
        imports := (classFile { options with imports } model kind).imports } := by
  cases kind <;> rfl

/-- Which names are imported does not depend on the paths. -/
theorem names_imports (imports : ImportPaths) :
    (classFile { options with imports } model kind).imports.map Import.names =
      (classFile options model kind).imports.map Import.names := by
  cases kind with
  | createDto =>
    unfold classFile createDto createDtoImports
    rw [List.map_append, List.map_append]
    congr 1
    split
    · rfl
    · rfl
  | updateDto | wiring => rfl
  | repository =>
    unfold classFile repository repositoryImports
    cases model.capability <;> rfl
  | service =>
    unfold classFile service serviceImports
    cases model.capability <;> rfl
  | controller =>
    unfold classFile controller controllerImports
    cases model.capability <;> rfl

end Classes

/-! ### What the texts are made from -/

/-- Indentation is all that is in front of a line of code. -/
theorem Line.trimLeft_shown (indent : Indent) (line : Line) :
    trimLeft (line.shown indent) = trimLeft line.text.toList := by
  unfold shown
  split
  next h => rw [String.isEmpty_iff.mp h]; rfl
  next => exact trimLeft_append (isBlankText_levels indent line.depth) line.text.toList

/-- Imports of the same names are lines of the same names. -/
theorem forall₂_importLines {imports others : List Import}
    (h : imports.map Import.names = others.map Import.names) (indent : Indent) :
    List.Forall₂ (fun line other => line = other ∨ ImportSameNames line other)
      (imports.map fun imported => Line.shown indent ⟨0, imported.text⟩)
      (others.map fun imported => Line.shown indent ⟨0, imported.text⟩) := by
  rw [← List.forall₂_eq_eq_eq, List.forall₂_map_left_iff, List.forall₂_map_right_iff] at h
  rw [List.forall₂_map_left_iff, List.forall₂_map_right_iff]
  refine h.imp fun imported other hnames => Or.inr ?_
  rw [Line.shown_zero, Line.shown_zero]
  exact ⟨imported.names, imported.path, other.path, rfl, by rw [hnames]⟩

theorem forall₂_lines {file : ClassFile} {imports : List Import}
    (h : imports.map Import.names = file.imports.map Import.names) (indent : Indent) :
    List.Forall₂ (fun line other => line = other ∨ ImportSameNames line other)
      (file.lines.map (Line.shown indent))
      ((ClassFile.lines { file with imports }).map (Line.shown indent)) := by
  simp only [ClassFile.lines_eq, List.map_append, List.map_map]
  refine List.rel_append (forall₂_importLines h.symm indent) ?_
  exact List.forall₂_same.mpr fun line _ => Or.inl rfl

section Files

variable {model : Model}

/-- The lines of a generated file are the lines of its class, if no import path breaks one. -/
theorem lines_file (h : model.IsWellRead) {options : Options} (hpaths : options.imports.AreOneLine)
    (kind : Kind) :
    lines (file options model kind).content.toList =
      (classFile options model kind).lines.map (Line.shown options.indent) :=
  ClassFile.lines_render_of_oneLine (classFile_hasPlainClass h kind)
    (fun imported himported => (origin_of_mem_imports h kind imported himported).oneLine_text h hpaths)
    options.indent

/-- Bundles are related when the files of each kind are. -/
theorem forall₂_bundle {relation : File → File → Prop} {first second : Options}
    (h : ∀ kind, relation (file first model kind) (file second model kind)) :
    List.Forall₂ relation (bundle first model) (bundle second model) := by
  rw [bundle_eq, bundle_eq, List.forall₂_map_left_iff, List.forall₂_map_right_iff]
  exact List.forall₂_same.mpr fun kind _ => h kind

theorem sameUpToExtension (options : Options) (extension : String) (kind : Kind) :
    File.SameUpToExtension options { options with extension } (file options model kind)
      (file { options with extension } model kind) where
  kind := rfl
  path := ⟨kind.barePath (Symbols.ofName model.name).stem, rfl, rfl⟩
  content := congrArg (ClassFile.render options.indent)
    (classFile_extension options model kind extension).symm

theorem sameUpToIndent (h : model.IsWellRead) {options : Options}
    (hpaths : options.imports.AreOneLine) (indent : Indent) (kind : Kind) :
    File.SameUpToIndent (file options model kind) (file { options with indent } model kind) where
  kind := rfl
  path := rfl
  content := by
    rw [lines_file h hpaths, @lines_file _ h { options with indent } hpaths, classFile_indent,
      List.map_map, List.map_map]
    refine List.map_congr_left fun line _ => ?_
    exact (line.trimLeft_shown options.indent).trans (line.trimLeft_shown indent).symm

theorem sameUpToCreateDto (options : Options) (optionality : Optionality) (kind : Kind) :
    File.SameUpToCreateDto (file options model kind)
      (file { options with optionality } model kind) where
  kind := rfl
  path := rfl
  content hkind := congrArg (ClassFile.render options.indent)
    (classFile_optionality options model hkind optionality).symm

theorem bundle_optionality {options : Options} {optionality : Optionality}
    (h : ∀ field ∈ payload model, optionality.forces model.name field.name =
      options.optionality.forces model.name field.name) :
    bundle { options with optionality } model = bundle options model := by
  refine bundle_congr fun kind => ?_
  by_cases hkind : kind = .createDto
  · subst hkind
    rw [file, file, classFile, classFile, createDto_optionality options h]
  · rw [file, file, classFile_optionality options model hkind]

theorem sameUpToImports (h : model.IsWellRead) {options : Options}
    (hpaths : options.imports.AreOneLine) {imports : ImportPaths} (himports : imports.AreOneLine)
    (kind : Kind) :
    File.SameUpToImports (file options model kind) (file { options with imports } model kind) where
  kind := rfl
  path := rfl
  content := by
    rw [lines_file h hpaths, @lines_file _ h { options with imports } himports,
      classFile_imports options model kind imports]
    exact forall₂_lines (names_imports options model kind imports) options.indent

end Files

/-- Each option reaches its own part of the files. Two runs on a model whose options differ in the
extension alone give files of the same content whose paths differ behind the last dot; in the
indentation alone, the same lines but for the blank space in front; in the optional fields alone,
the same files but for the object that creates an entity, and the same files altogether if the
fields of the payload are judged the same; in the import paths alone, the same lines but for
imports, which import the same names. -/
theorem options_separate {source : String} {model : Model}
    (hmodel : model ∈ (Document.ofSource source).models) (first second : Options)
    (hfirst : first.imports.AreOneLine) (hsecond : second.imports.AreOneLine) :
    (second = { first with extension := second.extension } →
      List.Forall₂ (File.SameUpToExtension first second) (bundle first model)
        (bundle second model)) ∧
    (second = { first with indent := second.indent } →
      List.Forall₂ File.SameUpToIndent (bundle first model) (bundle second model)) ∧
    (second = { first with optionality := second.optionality } →
      List.Forall₂ File.SameUpToCreateDto (bundle first model) (bundle second model) ∧
      ((∀ field ∈ payload model, second.optionality.forces model.name field.name =
          first.optionality.forces model.name field.name) →
        bundle second model = bundle first model)) ∧
    (second = { first with imports := second.imports } →
      List.Forall₂ File.SameUpToImports (bundle first model) (bundle second model)) := by
  have h := Schema.isWellRead_of_mem_models hmodel
  refine ⟨fun hsame => ?_, fun hsame => ?_, fun hsame => ?_, fun hsame => ?_⟩
  · rw [hsame]
    exact forall₂_bundle fun kind => sameUpToExtension first second.extension kind
  · rw [hsame]
    exact forall₂_bundle fun kind => sameUpToIndent h hfirst second.indent kind
  · rw [hsame]
    exact ⟨forall₂_bundle fun kind => sameUpToCreateDto first second.optionality kind,
      bundle_optionality⟩
  · rw [hsame]
    exact forall₂_bundle fun kind => sameUpToImports h hfirst hsecond kind

/-- A schema of one model. -/
def noteSchema : String := "model Note \x7b\n  text String\n\x7d\n"

/-- The model of `noteSchema`. -/
def note : Model where
  name := "Note"
  fields := [⟨"text", "String", false, false, false, false, false, none, 2⟩]
  compositeId := none

theorem note_mem_models : note ∈ (Document.ofSource noteSchema).models := by
  have hmodels : (Document.ofSource noteSchema).models = [note] := by decide +kernel
  simp [hmodels]

/-- Import paths, one of which cannot be quoted. -/
def oddPaths : ImportPaths := { prismaClient := "../it's" }

theorem options_separate_note :
    List.Forall₂ (File.SameUpToExtension {} { extension := "mts" }) (bundle {} note)
      (bundle { extension := "mts" } note) ∧
    List.Forall₂ File.SameUpToIndent (bundle {} note) (bundle { indent := .tab } note) ∧
    bundle { optionality := .none } note = bundle {} note ∧
    List.Forall₂ File.SameUpToImports (bundle {} note) (bundle { imports := oddPaths } note) := by
  have hpaths : (Options.imports {}).AreOneLine := by decide +kernel
  have hodd : oddPaths.AreOneLine := by decide +kernel
  have hsame := options_separate note_mem_models {}
  refine ⟨(hsame { extension := "mts" } hpaths hpaths).1 rfl,
    (hsame { indent := .tab } hpaths hpaths).2.1 rfl,
    ((hsame { optionality := .none } hpaths hpaths).2.2.1 rfl).2 ?_,
    (hsame { imports := oddPaths } hpaths hodd).2.2.2 rfl⟩
  decide +kernel

end Scaffold.Artifact
