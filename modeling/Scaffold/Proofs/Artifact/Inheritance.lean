import Scaffold.Proofs.Artifact.Binding
import Scaffold.Proofs.Schema.Attribution

/-!
What the layers of a module inherit. The class of a layer extends the base class of that layer, and
its file imports this class from the configured path, exactly when the body of the model declares
the three lifecycle markers, whatever else stands in it; the classes of any other model extend
nothing. With base classes the code does not speak of the identity of entities
(`layers_inherit_iff`).
-/

namespace Scaffold.Artifact

open Text
open Schema (Block Capability CompositeId Document FieldText Model Scan SourceLine lifecycleMarkers)

/-! ### Reading what a class extends -/

/-- What stands between the name of a class and the class that it extends. -/
def extendsMark : String := " extends "

/-- The class that the class on a line extends. -/
def superclass? (line : List Char) : Option String :=
  (dropPrefix? exportMark.toList line).bind fun rest =>
    (dropPrefix? extendsMark.toList (rest.dropWhile isWordChar)).map fun behind =>
      String.ofList (behind.takeWhile isWordChar)

/-- The classes that the classes of a file extend. -/
def superclasses (content : String) : List String :=
  (lines content.toList).filterMap superclass?

/-- Where no class is exported, none is extended. -/
theorem filterMap_superclass?_eq_nil {content : List (List Char)}
    (h : content.filterMap exportedClass? = []) : content.filterMap superclass? = [] := by
  refine List.filterMap_eq_nil_iff.mpr fun line hline => ?_
  have hnone := List.filterMap_eq_nil_iff.mp h line hline
  rw [exportedClass?, Option.map_eq_none_iff] at hnone
  rw [superclass?, hnone]
  rfl

/-- What a file extends is read from the head of its class. -/
theorem superclasses_render {file : ClassFile} (h : file.IsPlain) (indent : Indent) :
    superclasses (file.render indent) = (superclass? file.exportLine.text.toList).toList := by
  have habove := ClassFile.filterMap_exportedClass?_shown indent
    (ClassFile.isOther_above h.toHasPlainClass)
  have hbelow := ClassFile.filterMap_exportedClass?_shown indent
    (ClassFile.isOther_below h.toHasPlainClass)
  rw [superclasses, ClassFile.lines_render h, List.filterMap_append, List.filterMap_append,
    List.filterMap_cons, filterMap_superclass?_eq_nil (ClassFile.filterMap_exportedClass?_imports _),
    filterMap_superclass?_eq_nil habove, filterMap_superclass?_eq_nil hbelow]
  cases superclass? file.exportLine.text.toList <;> rfl

/-! ### Base classes -/

/-- The base class of a layer. -/
def Kind.baseClass (kind : Kind) : String :=
  baseStem ++ kind.back

/-- The configured path of the base class of a layer. -/
def ImportPaths.base (paths : ImportPaths) : Kind → Option String
  | .repository => some paths.baseRepository
  | .service => some paths.baseService
  | .controller => some paths.baseController
  | .createDto | .updateDto | .wiring => none

theorem Kind.isWord_baseClass (kind : Kind) : isWord kind.baseClass.toList = true := by
  have table : ∀ kind ∈ Kind.all, isWord kind.baseClass.toList = true := by decide
  exact table kind kind.mem_all

/-- What the class of a layer extends, given the capability of its model. -/
def ancestry (capability : Capability) (kind : Kind) (entity : String) : String :=
  match capability with
  | .rich => " extends " ++ baseStem ++ kind.back ++ "<" ++ entity ++ ">"
  | .basic => ""

/-- The class of a layer extends the base class of that layer if and only if its model is rich. -/
theorem exportLine_layer (options : Options) (model : Model) {kind : Kind} (h : kind ∈ layers) :
    (classFile options model kind).exportLine.text =
      exportMark ++ (Symbols.ofName model.name).className kind ++
        ancestry model.capability kind model.name ++ " \x7b" := by
  have hkinds : kind = .repository ∨ kind = .service ∨ kind = .controller := by
    simpa [layers] using h
  rw [ClassFile.exportLine, classFile_name]
  rcases hkinds with rfl | rfl | rfl
  · unfold classFile repository
    cases model.capability <;> rfl
  · unfold classFile service
    cases model.capability <;> rfl
  · unfold classFile controller
    cases model.capability <;> rfl

theorem superclass?_text {name : List Char} (h : isWord name = true) (tail : List Char) :
    superclass? (exportMark.toList ++ (name ++ ' ' :: tail)) =
      (dropPrefix? extendsMark.toList (' ' :: tail)).map fun behind =>
        String.ofList (behind.takeWhile isWordChar) := by
  have hspace : ∀ c ∈ (' ' :: tail).head?, isWordChar c = false := by
    intro c hc
    obtain rfl := Option.mem_some_iff.mp hc
    rfl
  rw [superclass?, dropPrefix?_append, Option.bind_some,
    dropWhile_append_stop (isWord_iff.mp h).2 hspace]

section Layer

variable {options : Options} {model : Model} {kind : Kind}

theorem superclass?_layer_rich (h : model.IsWellRead) (hkind : kind ∈ layers)
    (hrich : model.capability = .rich) :
    superclass? (classFile options model kind).exportLine.text.toList = some kind.baseClass := by
  have hclass := (Symbols.areWords_ofName h.name).isWord_className kind
  have hangle : ∀ c ∈ ('<' :: (model.name ++ "> \x7b").toList).head?, isWordChar c = false := by
    intro c hc
    obtain rfl := Option.mem_some_iff.mp hc
    rfl
  have htext : (classFile options model kind).exportLine.text.toList =
      exportMark.toList ++ (((Symbols.ofName model.name).className kind).toList ++
        ' ' :: ("extends ".toList ++
          (kind.baseClass.toList ++ '<' :: (model.name ++ "> \x7b").toList))) := by
    rw [exportLine_layer _ _ hkind, hrich]
    simp [ancestry, Kind.baseClass]
  have hmark : ' ' :: ("extends ".toList ++ (kind.baseClass.toList ++
      '<' :: (model.name ++ "> \x7b").toList)) =
        extendsMark.toList ++ (kind.baseClass.toList ++ '<' :: (model.name ++ "> \x7b").toList) := rfl
  rw [htext, superclass?_text hclass, hmark, dropPrefix?_append, Option.map_some,
    takeWhile_append_stop (isWord_iff.mp kind.isWord_baseClass).2 hangle, String.ofList_toList]

theorem superclass?_layer_basic (h : model.IsWellRead) (hkind : kind ∈ layers)
    (hbasic : model.capability = .basic) :
    superclass? (classFile options model kind).exportLine.text.toList = none := by
  have hclass := (Symbols.areWords_ofName h.name).isWord_className kind
  have htext : (classFile options model kind).exportLine.text.toList =
      exportMark.toList ++ (((Symbols.ofName model.name).className kind).toList ++ ' ' :: ['{']) := by
    rw [exportLine_layer _ _ hkind, hbasic]
    simp [ancestry]
  rw [htext, superclass?_text hclass]
  rfl

/-- A rich layer imports its base class from the configured path. -/
theorem exists_baseImport (hkind : kind ∈ layers) (hrich : model.capability = .rich) :
    ∃ path ∈ options.imports.base kind,
      ⟨[kind.baseClass], path⟩ ∈ (classFile options model kind).imports := by
  cases kind with
  | createDto | updateDto | wiring => simp [layers] at hkind
  | repository =>
    have hname : Kind.repository.baseClass = "BaseRepository" := by decide
    refine ⟨options.imports.baseRepository, rfl, ?_⟩
    rw [hname, classFile, repository, repositoryImports, hrich]
    exact List.mem_cons_of_mem _ (List.mem_cons_self ..)
  | service =>
    have hname : Kind.service.baseClass = "BaseService" := by decide
    refine ⟨options.imports.baseService, rfl, ?_⟩
    rw [hname, classFile, service, serviceImports, hrich]
    exact List.mem_cons_of_mem _ (List.mem_cons_self ..)
  | controller =>
    have hname : Kind.controller.baseClass = "BaseController" := by decide
    refine ⟨options.imports.baseController, rfl, ?_⟩
    rw [hname, classFile, controller, controllerImports, hrich]
    exact List.mem_cons_of_mem _ (List.mem_cons_of_mem _ (List.mem_cons_self ..))

/-- The classes of a module that end differently from a base class are not this class. -/
theorem baseClass_ne_className {target : Kind} (h : kind.ending ≠ target.ending)
    (symbols : Symbols) : kind.baseClass ≠ symbols.className target := by
  intro heq
  have hlength : ∀ kind ∈ Kind.all, kind.baseClass.toList.reverse.take 2 = kind.ending := by decide
  rw [← hlength kind kind.mem_all, ← symbols.ending_className, heq] at h
  exact h rfl

/-- What a basic layer imports under the name of its base class is the entity of that name. -/
theorem eq_entity_of_baseClass_mem (hkind : kind ∈ layers) (hbasic : model.capability = .basic) :
    ∀ imported ∈ (classFile options model kind).imports, kind.baseClass ∈ imported.names →
      imported = ⟨[model.name], options.imports.prismaClient⟩ := by
  intro imported himported hname
  -- Of the classes of the module, none ends like the base class of the file that imports it.
  have other : ∀ target : Kind, kind.ending ≠ target.ending →
      kind.baseClass ∉ [(Symbols.ofName model.name).className target] :=
    fun target hending mem =>
      baseClass_ne_className hending _ (List.mem_singleton.mp mem)
  cases kind with
  | createDto | updateDto | wiring => simp [layers] at hkind
  | repository =>
    simp only [classFile, repository, repositoryImports, hbasic, List.append_nil, List.cons_append,
      List.nil_append, List.mem_cons, List.not_mem_nil, or_false] at himported
    rcases himported with rfl | rfl | rfl
    · exact absurd hname (by decide)
    · rfl
    · exact absurd hname (by decide : Kind.repository.baseClass ∉ ["DatabaseService"])
  | service =>
    simp only [classFile, service, serviceImports, hbasic, dtoImports, List.cons_append,
      List.nil_append, List.mem_cons, List.not_mem_nil, or_false] at himported
    rcases himported with rfl | rfl | rfl | rfl | rfl
    · exact absurd hname (by decide)
    · rfl
    · exact absurd hname (other .repository (by decide))
    · exact absurd hname (other .createDto (by decide))
    · exact absurd hname (other .updateDto (by decide))
  | controller =>
    simp only [classFile, controller, controllerImports, hbasic, dtoImports, List.cons_append,
      List.nil_append, List.mem_cons, List.not_mem_nil, or_false] at himported
    rcases himported with rfl | rfl | rfl | rfl | rfl | rfl
    · exact absurd hname (by decide)
    · exact absurd hname (by decide)
    · rfl
    · exact absurd hname (other .service (by decide))
    · exact absurd hname (other .createDto (by decide))
    · exact absurd hname (other .updateDto (by decide))

/-! ### Inheritance -/

/-- The class of a layer extends its base class, which is imported from the configured path. -/
structure Inherits (paths : ImportPaths) (kind : Kind) (content : String) : Prop where
  superclasses : superclasses content = [kind.baseClass]
  imports : ∃ path ∈ paths.base kind, ⟨[kind.baseClass], path⟩ ∈ importsOf content

/-- The class of a layer extends nothing, and nothing but the entity is imported under the name of
the base class. -/
structure StandsAlone (entity : Import) (kind : Kind) (content : String) : Prop where
  superclasses : superclasses content = []
  imports : ∀ imported ∈ importsOf content, kind.baseClass ∈ imported.names → imported = entity

theorem Inherits.not_standsAlone {paths : ImportPaths} {kind : Kind} {content : String}
    (h : Inherits paths kind content) (entity : Import) : ¬StandsAlone entity kind content := by
  intro halone
  have hnone := halone.superclasses
  rw [h.superclasses] at hnone
  exact absurd hnone (List.cons_ne_nil _ _)

theorem inherits_layer (h : model.IsWellRead) (hpaths : options.imports.ArePlain)
    (hkind : kind ∈ layers) (hrich : model.capability = .rich) :
    Inherits options.imports kind (file options model kind).content := by
  have hplain := classFile_isPlain h hpaths kind
  constructor
  · rw [file, superclasses_render hplain, superclass?_layer_rich h hkind hrich]
    rfl
  · rw [file, ClassFile.importsOf_render hplain]
    exact exists_baseImport hkind hrich

theorem standsAlone_layer (h : model.IsWellRead) (hpaths : options.imports.ArePlain)
    (hkind : kind ∈ layers) (hbasic : model.capability = .basic) :
    StandsAlone ⟨[model.name], options.imports.prismaClient⟩ kind
      (file options model kind).content := by
  have hplain := classFile_isPlain h hpaths kind
  constructor
  · rw [file, superclasses_render hplain, superclass?_layer_basic h hkind hbasic]
    rfl
  · rw [file, ClassFile.importsOf_render hplain]
    exact eq_entity_of_baseClass_mem hkind hbasic

/-- A rich class is written without a look at the identity of its entities. -/
theorem classFile_compositeId_of_rich (hrich : model.capability = .rich)
    (composite : Option CompositeId) :
    classFile options { model with compositeId := composite } kind = classFile options model kind := by
  have hsame : Model.capability { model with compositeId := composite } = .rich := hrich
  cases kind with
  | createDto | updateDto | wiring => rfl
  | repository =>
    unfold classFile repository repositoryImports
    rw [hsame, hrich]
    rfl
  | service =>
    unfold classFile service serviceImports
    rw [hsame, hrich]
    rfl
  | controller =>
    unfold classFile controller controllerImports
    rw [hsame, hrich]
    rfl

end Layer

/-- Whether the lines of a body declare the three lifecycle markers, of whatever type and with
whatever else. -/
def DeclaresMarkers (body : List SourceLine) : Prop :=
  ∀ marker ∈ lifecycleMarkers, ∃ line ∈ body, ∃ written : FieldText,
    line.text = written.text ∧ written.name.string = marker

theorem capability_model_iff {block : Block} :
    block.model.capability = .rich ↔ DeclaresMarkers block.body := by
  rw [Model.capability_eq_rich_iff]
  exact forall₂_congr fun marker _ => Block.declares_model_iff

/-- The models of a source are those of its blocks. Among the files of a model there are exactly one
repository, one service and one controller, and these extend and import their base classes exactly
when the body of its block declares the three lifecycle markers, and otherwise none of them does.
With the markers, the files of the module are the same for every composite identity. -/
theorem layers_inherit_iff {source : String} {options : Options}
    (hpaths : options.imports.ArePlain) :
    (Document.ofSource source).models =
        ((Scan.ofSource source.toList).blocks.filter Block.isModel).map Block.model ∧
    ∀ block ∈ (Scan.ofSource source.toList).blocks, block.isModel = true →
      (∀ kind ∈ layers,
        (bundle options block.model).filter (fun made => made.kind = kind) =
          [file options block.model kind] ∧
        (Inherits options.imports kind (file options block.model kind).content ↔
          DeclaresMarkers block.body) ∧
        (StandsAlone ⟨[block.name], options.imports.prismaClient⟩ kind
            (file options block.model kind).content ↔
          ¬DeclaresMarkers block.body)) ∧
      (DeclaresMarkers block.body → ∀ composite,
        bundle options { block.model with compositeId := composite } =
          bundle options block.model) := by
  refine ⟨rfl, fun block hblock hmodel => ?_⟩
  have h := Schema.isWellRead_of_mem_models (Document.model_mem_models hblock hmodel)
  refine ⟨fun kind hkind => ?_, fun hmarkers composite => ?_⟩
  · refine ⟨filter_kind_bundle options block.model kind, ?_⟩
    rw [← capability_model_iff]
    cases hcapability : block.model.capability with
    | rich =>
      have hinherits := inherits_layer h hpaths hkind hcapability
      exact ⟨iff_of_true hinherits rfl,
        iff_of_false (hinherits.not_standsAlone _) (not_not_intro rfl)⟩
    | basic =>
      have halone := standsAlone_layer h hpaths hkind hcapability
      exact ⟨iff_of_false (fun hinherits => hinherits.not_standsAlone _ halone) nofun,
        iff_of_true halone nofun⟩
  · refine bundle_congr fun kind => ?_
    unfold file
    rw [classFile_compositeId_of_rich (capability_model_iff.mpr hmarkers)]

/-- A schema of one model, whose markers have the types of a relation, a list and an identity. -/
def logSchema : String :=
  "model Log \x7b\n deletedAt Why?\n updatedAt Int[]\n createdAt Int @id\n @@id([a])\n\x7d\n"

/-- The block of this model. -/
def logBlock : Block where
  keyword := "model"
  name := "Log"
  line := 1
  body :=
    [⟨2, "deletedAt Why?".toList⟩, ⟨3, "updatedAt Int[]".toList⟩, ⟨4, "createdAt Int @id".toList⟩,
      ⟨5, "@@id([a])".toList⟩]

theorem layers_inherit_log :
    (∀ kind ∈ layers, file {} logBlock.model kind ∈ bundle {} logBlock.model ∧
      Inherits {} kind (file {} logBlock.model kind).content) ∧
    bundle {} { logBlock.model with compositeId := none } = bundle {} logBlock.model := by
  have hpaths : (Options.imports {}).ArePlain := by decide +kernel
  have hblocks : (Scan.ofSource logSchema.toList).blocks = [logBlock] := by decide +kernel
  have hmarkers : DeclaresMarkers logBlock.body := capability_model_iff.mp (by decide +kernel)
  have hmem : logBlock ∈ (Scan.ofSource logSchema.toList).blocks := by
    rw [hblocks]
    exact List.mem_singleton_self logBlock
  obtain ⟨hlayers, hsame⟩ := (layers_inherit_iff hpaths).2 logBlock hmem (by decide)
  refine ⟨fun kind hkind => ?_, hsame hmarkers none⟩
  obtain ⟨honly, hinherits, -⟩ := hlayers kind hkind
  have hmade : file {} logBlock.model kind ∈
      (bundle {} logBlock.model).filter fun made => made.kind = kind := by
    rw [honly]
    exact List.mem_singleton_self _
  exact ⟨List.mem_of_mem_filter hmade, hinherits.mpr hmarkers⟩

end Scaffold.Artifact
