import Scaffold.Artifact.Bundle
import Scaffold.Proofs.Artifact.Resolution
import Scaffold.Proofs.Artifact.Symbols
import Scaffold.Proofs.Schema.WellRead

/-!
Where the imports of generated files come from. An import has names from a package, names from a
configured path, or the class of another file of the module, by the path that leads there
(`origin_of_mem_imports`). In each case it is an import that can be read back.
-/

namespace Scaffold.Artifact

open Text
open Schema (Model)

/-- All configured paths. -/
def ImportPaths.all (paths : ImportPaths) : List String :=
  [paths.baseRepository, paths.baseService, paths.baseController, paths.databaseService,
    paths.prismaClient, paths.decimal]

/-- Paths that can all be quoted. -/
def ImportPaths.ArePlain (paths : ImportPaths) : Prop :=
  ∀ path ∈ paths.all, IsPlainPath path

instance (paths : ImportPaths) : Decidable paths.ArePlain :=
  inferInstanceAs (Decidable (∀ path ∈ paths.all, IsPlainPath path))

/-- Paths without a line break. -/
def ImportPaths.AreOneLine (paths : ImportPaths) : Prop :=
  ∀ path ∈ paths.all, OneLine path

instance (paths : ImportPaths) : Decidable paths.AreOneLine :=
  inferInstanceAs (Decidable (∀ path ∈ paths.all, OneLine path))

/-- The packages that generated code imports from, whatever the options. -/
def packages : List String := ["@nestjs/common", "@nestjs/swagger", "class-validator"]

/-- Names that an import can bind. -/
def AreWords (names : List String) : Prop :=
  names ≠ [] ∧ ∀ name ∈ names, isWord name.toList = true

instance (names : List String) : Decidable (AreWords names) :=
  inferInstanceAs (Decidable (_ ∧ _))

theorem areWords_singleton {name : String} (h : isWord name.toList = true) : AreWords [name] :=
  ⟨List.cons_ne_nil name [], by simpa using h⟩

/-- What an import of a file can be. -/
inductive Import.Origin (options : Options) (model : Model) (importer : Kind) : Import → Prop
  | package {names : List String} {path : String} (words : AreWords names)
      (mem_packages : path ∈ packages) : Origin options model importer ⟨names, path⟩
  | configured {names : List String} {path : String} (words : AreWords names)
      (mem_all : path ∈ options.imports.all) : Origin options model importer ⟨names, path⟩
  | sibling (target : Kind)
      (reach : importer.directory = target.directory ∨ importer.directory = []) :
      Origin options model importer ⟨[(Symbols.ofName model.name).className target],
        specifier (Symbols.ofName model.name).stem importer target⟩

/-! ### Paths as the symbols give them -/

/-- From the directory of the module every path leads down, whether or not the two files share
it. -/
theorem specifier_of_directory_eq_nil {importer : Kind} (h : importer.directory = [])
    (stem : String) (target : Kind) :
    specifier stem importer target = "./" ++ target.barePath stem := by
  have hway : importer.way stem target = target.directory ++ [target.bareName stem] := by
    unfold Kind.way
    split
    next hsame => rw [← hsame, h]
    next => rfl
  refine String.toList_injective ?_
  rw [specifier, hway, target.barePath_eq, String.toList_append, String.toList_intercalate,
    String.toList_intercalate]
  cases target with
  | createDto | updateDto => simp [Kind.directory, Disk.stay]
  | repository | service | controller | wiring => simp [Kind.directory, Disk.stay]

/-- The one import between data transfer objects stays in their directory. -/
theorem specifier_updateDto_createDto (stem : String) :
    specifier stem .updateDto .createDto = "./" ++ dtoFile "create" stem := by
  refine String.toList_injective ?_
  rw [specifier, String.toList_intercalate]
  simp [Kind.way, Kind.directory, Kind.bareName, Disk.stay]

theorem isPlainPath_intercalate {separator : String} {parts : List String}
    (hseparator : IsPlainPath separator) (h : ∀ part ∈ parts, IsPlainPath part) :
    IsPlainPath (separator.intercalate parts) :=
  ⟨not_mem_intercalate hseparator.1 fun part hpart => (h part hpart).1,
    not_mem_intercalate hseparator.2 fun part hpart => (h part hpart).2⟩

/-- A path to another file is made of the stem and fixed names: no quote can end it early. -/
theorem isPlainPath_specifier {symbols : Symbols} (h : symbols.AreWords) (importer target : Kind) :
    IsPlainPath (specifier symbols.stem importer target) := by
  have hstem := h.isPlainPath_stem
  have hname : IsPlainPath (target.bareName symbols.stem) := by
    cases target with
    | createDto | updateDto => simp +decide [Kind.bareName, dtoFile, hstem]
    | repository | service | controller | wiring => simp +decide [Kind.bareName, hstem]
  have hdirectory : ∀ name ∈ target.directory, IsPlainPath name := by
    cases target with
    | createDto | updateDto => decide
    | repository | service | controller | wiring => decide
  refine isPlainPath_intercalate (by decide) fun name hmem => ?_
  rcases List.mem_cons.mp hmem with rfl | hmem
  · decide
  · rcases List.mem_append.mp hmem with hmem | hmem
    · split at hmem
      · cases hmem
      · exact hdirectory name hmem
    · exact List.mem_singleton.mp hmem ▸ hname

section Imports

variable {options : Options} {model : Model}

/-- A file of the module's own directory imports others by the paths that lead down from it. -/
theorem origin_sibling {importer : Kind} (h : importer.directory = []) (target : Kind)
    {path : String} (hpath : path = "./" ++ target.barePath (Symbols.ofName model.name).stem) :
    Import.Origin options model importer
      ⟨[(Symbols.ofName model.name).className target], path⟩ := by
  rw [hpath, ← specifier_of_directory_eq_nil h]
  exact .sibling target (Or.inr h)

theorem origin_repositoryFile {importer : Kind} (h : importer.directory = []) :
    Import.Origin options model importer
      ⟨[(Symbols.ofName model.name).repository],
        (Symbols.ofName model.name).sibling "repository"⟩ :=
  origin_sibling h .repository (by simp [Symbols.sibling, Kind.barePath, String.append_assoc])

theorem origin_serviceFile {importer : Kind} (h : importer.directory = []) :
    Import.Origin options model importer
      ⟨[(Symbols.ofName model.name).service], (Symbols.ofName model.name).sibling "service"⟩ :=
  origin_sibling h .service (by simp [Symbols.sibling, Kind.barePath, String.append_assoc])

theorem origin_controllerFile {importer : Kind} (h : importer.directory = []) :
    Import.Origin options model importer
      ⟨[(Symbols.ofName model.name).controller],
        (Symbols.ofName model.name).sibling "controller"⟩ :=
  origin_sibling h .controller (by simp [Symbols.sibling, Kind.barePath, String.append_assoc])

/-- The two imports of data transfer objects, shared by services and controllers. -/
theorem origin_dtoImports {importer : Kind} (h : importer.directory = []) :
    ∀ imported ∈ dtoImports (Symbols.ofName model.name),
      imported.Origin options model importer := by
  simp only [dtoImports, List.forall_mem_cons]
  refine ⟨origin_sibling h .createDto ?_, origin_sibling h .updateDto ?_, List.forall_mem_nil _⟩
  · simp [Symbols.dtoImport, Kind.barePath, String.append_assoc]
  · simp [Symbols.dtoImport, Kind.barePath, String.append_assoc]

/-- The type of the entities comes from the generated client, under the name of the model. -/
theorem origin_entity (h : model.IsWellRead) (importer : Kind) :
    Import.Origin options model importer ⟨[model.name], options.imports.prismaClient⟩ :=
  .configured (areWords_singleton h.name) (by simp [ImportPaths.all])

/-! ### The imports of each file -/

/-- Validators are imported from one package, and decimals from a configured path if they are
used. -/
theorem origin_createDto :
    ∀ imported ∈ createDtoImports options model, imported.Origin options model .createDto := by
  have hvalidator : ∀ validator : Schema.Validator, isWord validator.decorator.toList = true := by
    intro validator
    cases validator with
    | isString | isNumber => decide
    | isBoolean | isDateString => decide
  have hwords : AreWords (["IsOptional", "IsNotEmpty"] ++
      (usedValidators (payload model)).map Schema.Validator.decorator ++
        if (payload model).any Schema.Field.isArray then ["IsArray"] else []) := by
    refine ⟨by simp, fun name hname => ?_⟩
    rcases List.mem_append.mp hname with hname | hname
    · rcases List.mem_append.mp hname with hname | hname
      · exact (by decide : ∀ name ∈ ["IsOptional", "IsNotEmpty"], isWord name.toList = true)
          name hname
      · obtain ⟨validator, _, rfl⟩ := List.mem_map.mp hname
        exact hvalidator validator
    · split at hname
      · exact (by decide : ∀ name ∈ ["IsArray"], isWord name.toList = true) name hname
      · cases hname
  simp only [createDtoImports, List.forall_mem_append, List.forall_mem_cons]
  refine ⟨⟨.package hwords (by decide), .package (by decide) (by decide), List.forall_mem_nil _⟩, ?_⟩
  split
  · exact List.forall_mem_singleton.mpr (.configured (by decide) (by simp [ImportPaths.all]))
  · exact List.forall_mem_nil _

theorem origin_updateDto :
    ∀ imported ∈ (updateDto model).imports, imported.Origin options model .updateDto := by
  simp only [updateDto, List.forall_mem_cons, ← specifier_updateDto_createDto]
  exact ⟨.package (by decide) (by decide), .sibling .createDto (Or.inl rfl), List.forall_mem_nil _⟩

/-- A rich repository imports its base class besides; the other imports are those of a basic one. -/
theorem origin_repository (h : model.IsWellRead) :
    ∀ imported ∈ repositoryImports options model, imported.Origin options model .repository := by
  have hinjectable : Import.Origin options model .repository ⟨["Injectable"], "@nestjs/common"⟩ :=
    .package (by decide) (by decide)
  have hbase : Import.Origin options model .repository
      ⟨["BaseRepository"], options.imports.baseRepository⟩ :=
    .configured (by decide) (by simp [ImportPaths.all])
  have hdatabase : Import.Origin options model .repository
      ⟨["DatabaseService"], options.imports.databaseService⟩ :=
    .configured (by decide) (by simp [ImportPaths.all])
  unfold repositoryImports
  cases model.capability with
  | rich =>
    simp only [List.cons_append, List.nil_append, List.forall_mem_cons]
    exact ⟨hinjectable, hbase, origin_entity h _, hdatabase, List.forall_mem_nil _⟩
  | basic =>
    simp only [List.cons_append, List.nil_append, List.forall_mem_cons]
    exact ⟨hinjectable, origin_entity h _, hdatabase, List.forall_mem_nil _⟩

/-- A rich service leaves the data transfer objects to its base class, and a basic one imports
them. -/
theorem origin_service (h : model.IsWellRead) :
    ∀ imported ∈ serviceImports options model, imported.Origin options model .service := by
  have hinjectable : Import.Origin options model .service ⟨["Injectable"], "@nestjs/common"⟩ :=
    .package (by decide) (by decide)
  have hbase : Import.Origin options model .service
      ⟨["BaseService"], options.imports.baseService⟩ :=
    .configured (by decide) (by simp [ImportPaths.all])
  unfold serviceImports
  cases model.capability with
  | rich =>
    simp only [List.cons_append, List.nil_append, List.forall_mem_cons]
    exact ⟨hinjectable, hbase, origin_entity h _, origin_repositoryFile rfl, List.forall_mem_nil _⟩
  | basic =>
    simp only [List.cons_append, List.nil_append, List.forall_mem_cons]
    exact ⟨hinjectable, origin_entity h _, origin_repositoryFile rfl, origin_dtoImports rfl⟩

/-- Controllers import what services do, one layer up. -/
theorem origin_controller (h : model.IsWellRead) :
    ∀ imported ∈ controllerImports options model, imported.Origin options model .controller := by
  have hbase : Import.Origin options model .controller
      ⟨["BaseController"], options.imports.baseController⟩ :=
    .configured (by decide) (by simp [ImportPaths.all])
  unfold controllerImports
  cases model.capability with
  | rich =>
    simp only [List.cons_append, List.nil_append, List.forall_mem_cons]
    exact ⟨.package (by decide) (by decide), .package (by decide) (by decide), hbase,
      origin_entity h _, origin_serviceFile rfl, List.forall_mem_nil _⟩
  | basic =>
    simp only [List.cons_append, List.nil_append, List.forall_mem_cons]
    exact ⟨.package (by decide) (by decide), .package (by decide) (by decide), origin_entity h _,
      origin_serviceFile rfl, origin_dtoImports rfl⟩

theorem origin_wiring :
    ∀ imported ∈ (wiring model).imports, imported.Origin options model .wiring := by
  simp only [wiring, List.forall_mem_cons]
  exact ⟨.package (by decide) (by decide), origin_controllerFile rfl, origin_serviceFile rfl,
    origin_repositoryFile rfl, List.forall_mem_nil _⟩

/-- Every import of every file has one of the three origins. -/
theorem origin_of_mem_imports (h : model.IsWellRead) (kind : Kind) :
    ∀ imported ∈ (classFile options model kind).imports, imported.Origin options model kind := by
  cases kind with
  | createDto => exact origin_createDto
  | updateDto => exact origin_updateDto
  | repository => exact origin_repository h
  | service => exact origin_service h
  | controller => exact origin_controller h
  | wiring => exact origin_wiring

theorem Import.Origin.areWords_names (h : model.IsWellRead) {importer : Kind} {imported : Import}
    (horigin : imported.Origin options model importer) : AreWords imported.names := by
  cases horigin with
  | package words | configured words => exact words
  | sibling target =>
    exact areWords_singleton ((Symbols.areWords_ofName h.name).isWord_className target)

/-- Of the three origins only configured paths can hold a quote, which is what is asked of them. -/
theorem Import.Origin.isPlain (h : model.IsWellRead) (hpaths : options.imports.ArePlain)
    {importer : Kind} {imported : Import} (horigin : imported.Origin options model importer) :
    imported.IsPlain := by
  have hnames := horigin.areWords_names h
  have hpackages : ∀ path ∈ packages, IsPlainPath path := by decide
  refine ⟨hnames.1, hnames.2, ?_⟩
  cases horigin with
  | package words mem_packages => exact hpackages _ mem_packages
  | configured words mem_all => exact hpaths _ mem_all
  | sibling target => exact isPlainPath_specifier (Symbols.areWords_ofName h.name) importer target

/-- An import is on one line if the configured paths are, whatever else they hold. -/
theorem Import.Origin.oneLine_text (h : model.IsWellRead) (hpaths : options.imports.AreOneLine)
    {importer : Kind} {imported : Import} (horigin : imported.Origin options model importer) :
    OneLine imported.text := by
  have hpackages : ∀ path ∈ packages, OneLine path := by decide
  refine oneLine_text_of_words (horigin.areWords_names h).2 ?_
  cases horigin with
  | package words mem_packages => exact hpackages _ mem_packages
  | configured words mem_all => exact hpaths _ mem_all
  | sibling target =>
    exact (isPlainPath_specifier (Symbols.areWords_ofName h.name) importer target).2

end Imports

end Scaffold.Artifact
