import Mathlib.Data.List.Nodup
import Scaffold.Proofs.Artifact.Emitted

/-!
The names that a generated file binds: those that it imports, and the class that it exports. They
are names from libraries and shared code (`libraryNames`), classes of the module (`boundKinds`) and,
in the repository, the service and the controller, the entity under the name of its model. The
classes of a module differ from one another (`className_injective`) and from the entity; so a file
binds a name twice exactly when the model has one of the names that are reserved there
(`nodup_boundNames_iff`).
-/

namespace Scaffold.Artifact

open Text
open Schema (Model Document Capability)

/-! ### Bound names -/

/-- The names that the text of a file binds. -/
def boundNames (content : String) : List String :=
  (importsOf content).flatMap Import.names ++ exportedClasses content

/-- The names that a file binds, before it is text. -/
def ClassFile.boundNames (file : ClassFile) : List String :=
  file.imports.flatMap Import.names ++ [file.name]

/-- The kinds of files that import the entity itself. -/
def layers : List Kind := [.repository, .service, .controller]

/-- The kinds whose classes a file binds: those that it imports, and its own. -/
def boundKinds : Capability → Kind → List Kind
  | _, .createDto => [.createDto]
  | _, .updateDto => [.createDto, .updateDto]
  | _, .repository => [.repository]
  | .rich, .service => [.repository, .service]
  | .basic, .service => [.repository, .createDto, .updateDto, .service]
  | .rich, .controller => [.service, .controller]
  | .basic, .controller => [.service, .createDto, .updateDto, .controller]
  | _, .wiring => [.controller, .service, .repository, .wiring]

/-- The names that a file imports from libraries and shared code. The object that creates an entity
imports those of them that it uses. -/
def libraryNames : Capability → Kind → List String
  | _, .createDto =>
    ["IsOptional", "IsNotEmpty"] ++ Schema.Validator.all.map Schema.Validator.decorator ++
      ["IsArray"] ++ ["ApiProperty", "ApiPropertyOptional"] ++ ["Decimal"]
  | _, .updateDto => ["PartialType"]
  | .rich, .repository => ["Injectable", "BaseRepository", "DatabaseService"]
  | .basic, .repository => ["Injectable", "DatabaseService"]
  | .rich, .service => ["Injectable", "BaseService"]
  | .basic, .service => ["Injectable"]
  | .rich, .controller => ["Controller", "ApiTags", "BaseController"]
  | .basic, .controller =>
    ["Controller", "Get", "Post", "Body", "Patch", "Param", "Delete", "ParseIntPipe", "ApiTags",
      "ApiOperation", "ApiResponse"]
  | _, .wiring => ["Module"]

/-- The stem that makes the class of a layer the base class of this layer. -/
def baseStem : String := "Base"

/-- The names of a model that give its classes the names of the base classes they extend. -/
def baseNames : Capability → List String
  | .rich => [baseStem, "base"]
  | .basic => []

/-- The names of a model with which a file binds a name twice: its libraries, where the file
imports the entity next to them, and the names that clash with a base class. -/
def reservedNames (capability : Capability) (kind : Kind) : List String :=
  if kind ∈ layers then libraryNames capability kind ++ baseNames capability else []

/-! ### Classes -/

/-- What stands before the stem in the class of a kind. -/
def Kind.front : Kind → String
  | .createDto => "Create"
  | .updateDto => "Update"
  | .repository | .service | .controller | .wiring => ""

/-- What stands behind the stem in the class of a kind. -/
def Kind.back : Kind → String
  | .createDto | .updateDto => "Dto"
  | .repository => "Repository"
  | .service => "Service"
  | .controller => "Controller"
  | .wiring => "Module"

theorem Symbols.className_eq (symbols : Symbols) (kind : Kind) :
    symbols.className kind = kind.front ++ symbols.entity ++ kind.back := by
  have empty_front : ∀ back : String, symbols.entity ++ back = "" ++ symbols.entity ++ back := by
    intro back
    rw [String.empty_append]
  cases kind with
  | createDto | updateDto => rfl
  | repository => exact empty_front "Repository"
  | service => exact empty_front "Service"
  | controller => exact empty_front "Controller"
  | wiring => exact empty_front "Module"

/-- The stem of a name, if it is the name of a class of the kind. -/
def Kind.stem? (kind : Kind) (name : String) : Option (List Char) :=
  (dropPrefix? kind.front.toList name.toList).bind (dropSuffix? kind.back.toList)

theorem Kind.stem?_eq_some_iff {kind : Kind} {name : String} {symbols : Symbols} :
    kind.stem? name = some symbols.entity.toList ↔ symbols.className kind = name := by
  rw [symbols.className_eq, ← String.toList_inj, String.toList_append, String.toList_append,
    List.append_assoc]
  constructor
  · intro h
    obtain ⟨rest, hfront, hback⟩ := Option.bind_eq_some_iff.mp h
    rw [dropPrefix?_eq_some_iff.mp hfront, dropSuffix?_eq_some_iff.mp hback]
  · intro h
    rw [stem?, ← h, dropPrefix?_append]
    exact dropSuffix?_eq_some_iff.mpr rfl

/-- The last two characters of the classes of a kind. -/
def Kind.ending (kind : Kind) : List Char :=
  kind.back.toList.reverse.take 2

theorem Symbols.ending_className (symbols : Symbols) (kind : Kind) :
    (symbols.className kind).toList.reverse.take 2 = kind.ending := by
  have hlength : ∀ kind ∈ Kind.all, 2 ≤ kind.back.toList.reverse.length := by decide
  rw [symbols.className_eq, String.toList_append, List.reverse_append,
    List.take_append_of_le_length (hlength kind kind.mem_all)]
  rfl

/-- No two files of a module export the same class. -/
theorem Symbols.className_injective (symbols : Symbols) :
    Function.Injective symbols.className := by
  intro kind other h
  have hending : kind.ending = other.ending := by
    rw [← symbols.ending_className, ← symbols.ending_className, h]
  -- The endings tell all classes apart but the two data transfer objects.
  have table : ∀ kind ∈ Kind.all, ∀ other ∈ Kind.all, kind.ending = other.ending →
      kind = other ∨ kind = .createDto ∧ other = .updateDto ∨
        kind = .updateDto ∧ other = .createDto := by
    decide
  have hne : symbols.createDto ≠ symbols.updateDto := by
    intro heq
    have := congrArg (fun name => name.toList.head?) heq
    simp [createDto, updateDto] at this
  rcases table kind kind.mem_all other other.mem_all hending with rfl | ⟨rfl, rfl⟩ | ⟨rfl, rfl⟩
  · rfl
  · exact absurd h hne
  · exact absurd h.symm hne

/-- The classes of a module are longer than the name of its model. -/
theorem className_ne_name {name : String} (h : isWord name.toList = true) (kind : Kind) :
    (Symbols.ofName name).className kind ≠ name := by
  intro heq
  have hback : ∀ kind ∈ Kind.all, 0 < kind.back.toList.length := by decide
  have hpos := hback kind kind.mem_all
  have hentity : (Symbols.ofName name).entity.toList.length = name.toList.length :=
    length_capitalize h
  have hlength := congrArg (fun text => text.toList.length) heq
  simp only [Symbols.className_eq, String.toList_append, List.length_append, hentity] at hlength
  omega

/-! ### Classes and libraries -/

/-- Where the name of a class of the module is also the name of a library: only base classes have
the names of classes, and of those of a model called `Base`. -/
theorem stem?_libraryNames (capability : Capability) (kind : Kind) :
    ∀ target ∈ boundKinds capability kind, ∀ name ∈ libraryNames capability kind,
      ∀ stem ∈ target.stem? name,
        stem = [] ∨ stem = baseStem.toList ∧ capability = .rich ∧ kind ∈ layers := by
  cases capability with
  | rich => cases kind <;> decide
  | basic => cases kind <;> decide

/-- The class of a rich layer in a module of that stem is the base class. -/
theorem baseClass_mem_libraryNames :
    ∀ kind ∈ layers, ∃ name ∈ libraryNames .rich kind, kind.stem? name = some baseStem.toList ∧
      kind ∈ boundKinds .rich kind := by
  decide

theorem nodup_libraryNames (capability : Capability) (kind : Kind) :
    (libraryNames capability kind).Nodup := by
  cases capability with
  | rich => cases kind <;> decide
  | basic => cases kind <;> decide

theorem nodup_boundKinds (capability : Capability) (kind : Kind) :
    (boundKinds capability kind).Nodup := by
  cases capability with
  | rich => cases kind <;> decide
  | basic => cases kind <;> decide

/-- The classes that a file binds are none of its libraries, except for the class that takes the
name of the base class that it extends. -/
theorem nodup_libraries_classes_iff {symbols : Symbols} (hentity : symbols.entity.toList ≠ [])
    (capability : Capability) (kind : Kind) :
    (libraryNames capability kind ++
        (boundKinds capability kind).map symbols.className).Nodup ↔
      ¬(symbols.entity = baseStem ∧ capability = .rich ∧ kind ∈ layers) := by
  rw [List.nodup_append]
  constructor
  · rintro ⟨-, -, hdisjoint⟩ ⟨hbase, rfl, hkind⟩
    obtain ⟨name, hname, hstem, hbound⟩ := baseClass_mem_libraryNames kind hkind
    rw [← hbase] at hstem
    exact hdisjoint name hname _ (List.mem_map_of_mem hbound) (Kind.stem?_eq_some_iff.mp hstem).symm
  · intro hbase
    refine ⟨nodup_libraryNames capability kind,
      List.Nodup.map symbols.className_injective (nodup_boundKinds capability kind), ?_⟩
    rintro name hname _ hclass rfl
    obtain ⟨target, htarget, heq⟩ := List.mem_map.mp hclass
    have hstem : target.stem? name = some symbols.entity.toList := Kind.stem?_eq_some_iff.mpr heq
    rcases stem?_libraryNames capability kind target htarget name hname _ hstem with
      hempty | ⟨hstem, hrich, hlayer⟩
    · exact hentity hempty
    · exact hbase ⟨String.toList_inj.mp hstem, hrich, hlayer⟩

/-! ### Files -/

section Files

variable {options : Options} {model : Model}

theorem boundNames_file (h : model.IsWellRead) (hpaths : options.imports.ArePlain) (kind : Kind) :
    boundNames (file options model kind).content = (classFile options model kind).boundNames := by
  have hplain := classFile_isPlain h hpaths kind
  rw [boundNames, file, ClassFile.importsOf_render hplain, ClassFile.exportedClasses_render hplain]
  rfl

/-- A layer binds its libraries, the classes of the module that it uses and, among them, the name
of the model. -/
theorem boundNames_layer {kind : Kind} (hkind : kind ∈ layers) :
    ∃ front back, (classFile options model kind).boundNames = front ++ model.name :: back ∧
      front ++ back = libraryNames model.capability kind ++
        (boundKinds model.capability kind).map (Symbols.ofName model.name).className := by
  cases kind with
  | createDto | updateDto | wiring => simp [layers] at hkind
  | repository =>
    unfold classFile repository ClassFile.boundNames repositoryImports
    cases model.capability with
    | rich => exact ⟨["Injectable", "BaseRepository"], _, rfl, rfl⟩
    | basic => exact ⟨["Injectable"], _, rfl, rfl⟩
  | service =>
    unfold classFile service ClassFile.boundNames serviceImports
    cases model.capability with
    | rich => exact ⟨libraryNames .rich .service, _, rfl, rfl⟩
    | basic => exact ⟨libraryNames .basic .service, _, rfl, rfl⟩
  | controller =>
    unfold classFile controller ClassFile.boundNames controllerImports
    cases model.capability with
    | rich => exact ⟨libraryNames .rich .controller, _, rfl, rfl⟩
    | basic => exact ⟨libraryNames .basic .controller, _, rfl, rfl⟩

/-- The object that creates an entity imports some of the libraries that such an object can use. -/
theorem boundNames_createDto :
    ∃ libraries, libraries.Sublist (libraryNames model.capability .createDto) ∧
      (classFile options model .createDto).boundNames = libraries ++
        (boundKinds model.capability .createDto).map (Symbols.ofName model.name).className := by
  refine ⟨(createDtoImports options model).flatMap Import.names, ?_, rfl⟩
  have hvalidators : ((usedValidators (payload model)).map Schema.Validator.decorator).Sublist
      (Schema.Validator.all.map Schema.Validator.decorator) :=
    List.filter_sublist.map _
  have harrays : ∀ condition : Bool,
      (if condition then ["IsArray"] else []).Sublist ["IsArray"] := by
    decide
  have hdecimals : ∀ condition : Bool,
      ((if condition then [⟨["Decimal"], options.imports.decimal⟩] else []).flatMap
        Import.names).Sublist ["Decimal"] := by
    intro condition
    cases condition with
    | true => exact List.Sublist.refl _
    | false => exact List.nil_sublist _
  unfold createDtoImports
  rw [List.flatMap_append]
  refine List.Sublist.append ?_ (hdecimals _)
  change (["IsOptional", "IsNotEmpty"] ++ _ ++ _ ++
    (["ApiProperty", "ApiPropertyOptional"] ++ [])).Sublist _
  rw [List.append_nil]
  exact (((List.Sublist.refl _).append hvalidators).append (harrays _)).append
    (List.Sublist.refl _)

/-- A file that does not import the entity binds no name twice. -/
theorem nodup_boundNames_of_not_mem_layers {kind : Kind}
    (hentity : (Symbols.ofName model.name).entity.toList ≠ []) (hkind : kind ∉ layers) :
    (classFile options model kind).boundNames.Nodup := by
  have hnodup : (libraryNames model.capability kind ++
      (boundKinds model.capability kind).map (Symbols.ofName model.name).className).Nodup :=
    (nodup_libraries_classes_iff hentity model.capability kind).mpr fun h => hkind h.2.2
  cases kind with
  | createDto =>
    obtain ⟨libraries, hsublist, heq⟩ := @boundNames_createDto options model
    rw [heq]
    exact hnodup.sublist (hsublist.append_right _)
  | updateDto | wiring => exact hnodup
  | repository | service | controller => simp [layers] at hkind

theorem nodup_boundNames_layer_iff (h : model.IsWellRead) {kind : Kind} (hkind : kind ∈ layers) :
    (classFile options model kind).boundNames.Nodup ↔
      model.name ∉ libraryNames model.capability kind ∧
        ¬((Symbols.ofName model.name).entity = baseStem ∧ model.capability = .rich) := by
  have hentity := (isWord_iff.mp (Symbols.areWords_ofName h.name).entity).1
  have hclasses : model.name ∉
      (boundKinds model.capability kind).map (Symbols.ofName model.name).className := by
    intro mem
    obtain ⟨target, _, heq⟩ := List.mem_map.mp mem
    exact className_ne_name h.name target heq
  obtain ⟨front, back, hbound, hrest⟩ := @boundNames_layer options model kind hkind
  rw [hbound, List.nodup_middle, List.nodup_cons, hrest, List.mem_append,
    nodup_libraries_classes_iff hentity]
  simp [hclasses, hkind]

end Files

theorem capitalize_eq_baseStem_iff {name : String} (h : isWord name.toList = true) :
    capitalize name = baseStem ↔ name = baseStem ∨ name = "base" := by
  constructor
  · intro heq
    obtain ⟨c, rest, htext, hascii, hcapitalize⟩ := toList_capitalize h
    rw [heq] at hcapitalize
    obtain ⟨hupper, hrest⟩ := List.cons.inj hcapitalize
    have hc := forall_ascii (fun d => 'B' = d.toUpper → d = 'B' ∨ d = 'b') (by decide) hascii
    rw [← hrest] at htext
    rcases hc hupper with rfl | rfl
    · exact Or.inl (String.toList_inj.mp htext)
    · exact Or.inr (String.toList_inj.mp htext)
  · rintro (rfl | rfl)
    · decide
    · decide

section Module

variable {source : String} {options : Options} {model : Model}

/-- Every line of a generated file that begins like an import is one. The names that these imports
bind and the class that the file exports are distinct exactly when the model has none of the names
that are reserved in the file. -/
theorem nodup_boundNames_iff (hmodel : model ∈ (Document.ofSource source).models)
    (hpaths : options.imports.ArePlain) :
    ∀ file ∈ bundle options model,
      (∀ line ∈ lines file.content.toList, importMark.toList <+: line →
        (Import.ofLine? line).isSome) ∧
      ((boundNames file.content).Nodup ↔
        model.name ∉ reservedNames model.capability file.kind) := by
  have h := Schema.isWellRead_of_mem_models hmodel
  have hwords := Symbols.areWords_ofName h.name
  intro importing hmem
  obtain ⟨kind, rfl⟩ := mem_bundle_iff.mp hmem
  have hplain := classFile_isPlain h hpaths kind
  constructor
  · intro line hline hmark
    obtain ⟨imported, himported, rfl⟩ := ClassFile.exists_import_of_prefix hplain hline hmark
    rw [Import.ofLine?_text (hplain.imports imported himported)]
    rfl
  · rw [boundNames_file h hpaths]
    change _ ↔ model.name ∉ reservedNames model.capability kind
    by_cases hkind : kind ∈ layers
    · have hbase : (Symbols.ofName model.name).entity = baseStem ↔
          model.name = baseStem ∨ model.name = "base" :=
        capitalize_eq_baseStem_iff h.name
      rw [nodup_boundNames_layer_iff h hkind, reservedNames, if_pos hkind, hbase]
      cases model.capability with
      | rich => simp [baseNames]
      | basic => simp [baseNames]
    · have hnodup : (classFile options model kind).boundNames.Nodup :=
        nodup_boundNames_of_not_mem_layers (isWord_iff.mp hwords.entity).1 hkind
      rw [reservedNames, if_neg hkind]
      simp [hnodup]

end Module

/-- A schema of one model, which is called like a decorator. -/
def injectableSchema : String := "model Injectable \x7b\n  id Int @id\n\x7d\n"

/-- The model of `injectableSchema`. -/
def injectable : Model where
  name := "Injectable"
  fields := [⟨"id", "Int", false, true, false, false, false, none, 2⟩]
  compositeId := none

theorem injectable_mem_models : injectable ∈ (Document.ofSource injectableSchema).models := by
  have hmodels : (Document.ofSource injectableSchema).models = [injectable] := by decide
  simp [hmodels]

theorem nodup_boundNames_iff_injectable :
    ¬ (boundNames (file {} injectable .service).content).Nodup ∧
      (boundNames (file {} injectable .controller).content).Nodup := by
  have hpaths : (Options.imports {}).ArePlain := by decide
  have hfiles := nodup_boundNames_iff injectable_mem_models hpaths
  constructor
  · rw [(hfiles (file {} injectable .service) (mem_bundle_iff.mpr ⟨.service, rfl⟩)).2]
    decide
  · rw [(hfiles (file {} injectable .controller)
      (mem_bundle_iff.mpr ⟨.controller, rfl⟩)).2]
    decide

/-- The entity of a model that is called like a decorator is imported next to the decorator. -/
theorem not_forall_nodup_boundNames :
    ¬ ∀ (source : String) (options : Options) (model : Model),
      model ∈ (Document.ofSource source).models → options.imports.ArePlain →
        ∀ file ∈ bundle options model, (boundNames file.content).Nodup := by
  intro h
  have hfile := h injectableSchema {} injectable injectable_mem_models (by decide)
    (file {} injectable .service) (mem_bundle_iff.mpr ⟨.service, rfl⟩)
  rw [boundNames_file (Schema.isWellRead_of_mem_models injectable_mem_models) (by decide)] at hfile
  exact absurd hfile (by decide)

end Scaffold.Artifact
