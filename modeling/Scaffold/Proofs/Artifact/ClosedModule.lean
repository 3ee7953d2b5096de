import Scaffold.Proofs.Artifact.Emitted

/-!
The six files of a module belong together (`bundle_closed`). An import that is none of the
packages and none of the configured paths leads to exactly one file of the module, which exports
the imported class; and a file imports the classes of the module that it mentions.
-/

namespace Scaffold.Artifact

open Text
open Schema (Document Model)

/-! ### Mentions -/

/-- The classes that a member speaks of: the types of what it is handed over. -/
def Member.mentions : Member → List String
  | .property _ => []
  | .injection declared => [declared.type]
  | .method declared => declared.parameters.map Parameter.type
  | .fixed _ => []

/-- The classes that a decorator lists. -/
def Decorator.mentions : Decorator → List String
  | .plain _ _ => []
  | .table _ rows => rows.flatMap Prod.snd

/-- The class of the module that a class is derived from. -/
def Heritage.mentions : Heritage → List String
  | .nothing => []
  | .base _ _ => []
  | .partialOf name => [name]

/-- The classes that a file speaks of. -/
def ClassFile.mentions (file : ClassFile) : List String :=
  file.decorators.flatMap Decorator.mentions ++ file.heritage.mentions ++
    file.members.flatMap Member.mentions

@[simp] theorem Member.mentions_property (declared : Property) :
    (Member.property declared).mentions = [] := rfl

@[simp] theorem Member.mentions_injection (declared : Injection) :
    (Member.injection declared).mentions = [declared.type] := rfl

@[simp] theorem Member.mentions_method (declared : Method) :
    (Member.method declared).mentions = declared.parameters.map Parameter.type := rfl

@[simp] theorem Member.mentions_fixed (text : List Line) : (Member.fixed text).mentions = [] := rfl

/-- The types of generated code that belong to no file. -/
def plainTypes : List String := [identityType, "any"]

/-- A type that code with some imports can speak of. -/
def IsKnown (imports : List Import) (type : String) : Prop :=
  type ∈ plainTypes ∨ ∃ imported ∈ imports, type ∈ imported.names

/-- A type is known by an import of its own. -/
theorem isKnown_of_mem {imports : List Import} {type : String} (path : String)
    (h : ⟨[type], path⟩ ∈ imports) : IsKnown imports type :=
  Or.inr ⟨_, h, List.mem_cons_self ..⟩

section Members

variable {imports : List Import} {model : Model}

theorem isKnown_identityParameters (identity : Schema.Identity) :
    ∀ parameter ∈ identityParameters identity, IsKnown imports parameter.type := by
  intro parameter hparameter
  obtain ⟨_, _, rfl⟩ := List.mem_map.mp hparameter
  exact Or.inl (List.mem_cons_self ..)

theorem isKnown_routeParameters (identity : Schema.Identity) :
    ∀ parameter ∈ routeParameters identity, IsKnown imports parameter.type := by
  intro parameter hparameter
  obtain ⟨_, _, rfl⟩ := List.mem_map.mp hparameter
  exact Or.inl (List.mem_cons_self ..)

/-- A repository takes numbers and plain data, so its methods need no import. -/
theorem isKnown_repositoryMethods : ∀ method ∈ repositoryMethods model,
    ∀ parameter ∈ method.parameters, IsKnown imports parameter.type := by
  have hidentity := @isKnown_identityParameters imports model.identity
  have hdata : IsKnown imports "any" := Or.inl (by decide)
  simp only [repositoryMethods, List.forall_mem_cons, List.forall_mem_append]
  exact ⟨List.forall_mem_nil _, hidentity, ⟨hdata, List.forall_mem_nil _⟩,
    ⟨hidentity, hdata, List.forall_mem_nil _⟩, hidentity, List.forall_mem_nil _⟩

/-- The data transfer objects are the two types that a service takes from elsewhere. -/
theorem isKnown_serviceMethods
    (hcreate : IsKnown imports (Symbols.ofName model.name).createDto)
    (hupdate : IsKnown imports (Symbols.ofName model.name).updateDto) :
    ∀ method ∈ serviceMethods model,
      ∀ parameter ∈ method.parameters, IsKnown imports parameter.type := by
  have hidentity := @isKnown_identityParameters imports model.identity
  simp only [serviceMethods, List.forall_mem_cons, List.forall_mem_append]
  exact ⟨List.forall_mem_nil _, hidentity, ⟨hcreate, List.forall_mem_nil _⟩,
    ⟨hidentity, hupdate, List.forall_mem_nil _⟩, hidentity, List.forall_mem_nil _⟩

theorem isKnown_endpoints
    (hcreate : IsKnown imports (Symbols.ofName model.name).createDto)
    (hupdate : IsKnown imports (Symbols.ofName model.name).updateDto) :
    ∀ method ∈ endpoints model,
      ∀ parameter ∈ method.parameters, IsKnown imports parameter.type := by
  have hidentity := @isKnown_routeParameters imports model.identity
  simp only [endpoints, List.forall_mem_cons, List.forall_mem_append]
  exact ⟨⟨hcreate, List.forall_mem_nil _⟩, List.forall_mem_nil _, hidentity,
    ⟨hidentity, hupdate, List.forall_mem_nil _⟩, hidentity, List.forall_mem_nil _⟩

/-- A basic class speaks of what it is injected and what its methods are handed over. -/
theorem isKnown_basicMembers {injection : Injection} {methods : List Method}
    (hinjection : IsKnown imports injection.type)
    (hmethods : ∀ method ∈ methods,
      ∀ parameter ∈ method.parameters, IsKnown imports parameter.type) :
    ∀ member ∈ Member.injection injection :: methods.map .method,
      ∀ name ∈ member.mentions, IsKnown imports name := by
  intro member hmember name hname
  rcases List.mem_cons.mp hmember with rfl | hmember
  · rw [Member.mentions_injection] at hname
    rwa [List.mem_singleton.mp hname]
  · obtain ⟨method, hmethod, rfl⟩ := List.mem_map.mp hmember
    rw [Member.mentions_method] at hname
    obtain ⟨parameter, hparameter, rfl⟩ := List.mem_map.mp hname
    exact hmethods method hmethod parameter hparameter

end Members

section Files

variable {options : Options} {model : Model}

/-- A repository is injected its database, which it imports in both of its forms. -/
theorem isKnown_repository : ∀ member ∈ (repository options model).members,
    ∀ name ∈ member.mentions, IsKnown (repository options model).imports name := by
  have hdatabase : IsKnown (repositoryImports options model) "DatabaseService" :=
    isKnown_of_mem options.imports.databaseService (by simp [repositoryImports])
  unfold repository
  cases model.capability with
  | rich => simpa [richRepositoryMembers] using hdatabase
  | basic => exact isKnown_basicMembers hdatabase isKnown_repositoryMethods

/-- The form of a service decides whether it imports the data transfer objects, and only the basic
form takes them. -/
theorem isKnown_service : ∀ member ∈ (service options model).members,
    ∀ name ∈ member.mentions, IsKnown (service options model).imports name := by
  have hrepository : IsKnown (serviceImports options model)
      (Symbols.ofName model.name).repository := by
    refine isKnown_of_mem ((Symbols.ofName model.name).sibling "repository") ?_
    unfold serviceImports
    cases model.capability with
    | rich => simp
    | basic => simp
  unfold service
  cases hcapability : model.capability with
  | rich => simpa [richServiceMembers] using hrepository
  | basic =>
    refine isKnown_basicMembers hrepository (isKnown_serviceMethods ?_ ?_)
    · exact isKnown_of_mem ((Symbols.ofName model.name).dtoImport "create")
        (by simp [serviceImports, hcapability, dtoImports])
    · exact isKnown_of_mem ((Symbols.ofName model.name).dtoImport "update")
        (by simp [serviceImports, hcapability, dtoImports])

/-- A controller relates to its service as that does to the repository. -/
theorem isKnown_controller : ∀ member ∈ (controller options model).members,
    ∀ name ∈ member.mentions, IsKnown (controller options model).imports name := by
  have hservice : IsKnown (controllerImports options model)
      (Symbols.ofName model.name).service := by
    refine isKnown_of_mem ((Symbols.ofName model.name).sibling "service") ?_
    unfold controllerImports
    cases model.capability with
    | rich => simp
    | basic => simp
  unfold controller
  cases hcapability : model.capability with
  | rich => simpa [richControllerMembers] using hservice
  | basic =>
    refine isKnown_basicMembers hservice (isKnown_endpoints ?_ ?_)
    · exact isKnown_of_mem ((Symbols.ofName model.name).dtoImport "create")
        (by simp [controllerImports, hcapability, dtoImports])
    · exact isKnown_of_mem ((Symbols.ofName model.name).dtoImport "update")
        (by simp [controllerImports, hcapability, dtoImports])

/-- The file of wiring has no members; what it wires are the classes of the three layers. -/
theorem isKnown_wiring : ∀ decorator ∈ (wiring model).decorators,
    ∀ name ∈ decorator.mentions, IsKnown (wiring model).imports name := by
  have hcontroller : IsKnown (wiring model).imports (Symbols.ofName model.name).controller :=
    isKnown_of_mem ((Symbols.ofName model.name).sibling "controller") (by simp [wiring])
  have hservice : IsKnown (wiring model).imports (Symbols.ofName model.name).service :=
    isKnown_of_mem ((Symbols.ofName model.name).sibling "service") (by simp [wiring])
  have hrepository : IsKnown (wiring model).imports (Symbols.ofName model.name).repository :=
    isKnown_of_mem ((Symbols.ofName model.name).sibling "repository") (by simp [wiring])
  refine List.forall_mem_singleton.mpr fun name hname => ?_
  obtain ⟨row, hrow, hname⟩ := List.mem_flatMap.mp hname
  simp only [List.mem_cons, List.not_mem_nil, or_false] at hrow
  rcases hrow with rfl | rfl | rfl
  · rwa [List.mem_singleton.mp hname]
  · rcases List.mem_cons.mp hname with rfl | hname
    · exact hservice
    · rwa [List.mem_singleton.mp hname]
  · rwa [List.mem_singleton.mp hname]

theorem isKnown_decorators (kind : Kind) :
    ∀ decorator ∈ (classFile options model kind).decorators,
      ∀ name ∈ decorator.mentions, IsKnown (classFile options model kind).imports name := by
  cases kind with
  | createDto | updateDto => exact List.forall_mem_nil _
  | repository | service => exact List.forall_mem_singleton.mpr (List.forall_mem_nil _)
  | controller =>
    exact List.forall_mem_cons.mpr
      ⟨List.forall_mem_nil _, List.forall_mem_singleton.mpr (List.forall_mem_nil _)⟩
  | wiring => exact isKnown_wiring

/-- Of classes of the module only the one for creation is a base, namely of the one for updates. -/
theorem isKnown_heritage (kind : Kind) : ∀ name ∈ (classFile options model kind).heritage.mentions,
    IsKnown (classFile options model kind).imports name := by
  cases kind with
  | createDto | wiring => exact List.forall_mem_nil _
  | updateDto =>
    exact List.forall_mem_singleton.mpr
      (isKnown_of_mem ("./" ++ dtoFile "create" (Symbols.ofName model.name).stem)
        (List.mem_cons_of_mem _ (List.mem_cons_self ..)))
  | repository =>
    unfold classFile repository
    cases model.capability with
    | rich | basic => exact List.forall_mem_nil _
  | service =>
    unfold classFile service
    cases model.capability with
    | rich | basic => exact List.forall_mem_nil _
  | controller =>
    unfold classFile controller
    cases model.capability with
    | rich | basic => exact List.forall_mem_nil _

/-- Properties have plain types, so that of the data transfer objects neither has anything to import
for its members. -/
theorem isKnown_members (kind : Kind) : ∀ member ∈ (classFile options model kind).members,
    ∀ name ∈ member.mentions, IsKnown (classFile options model kind).imports name := by
  cases kind with
  | createDto =>
    intro member hmember name hname
    obtain ⟨field, _, rfl⟩ := List.mem_map.mp hmember
    cases hname
  | updateDto | wiring => exact List.forall_mem_nil _
  | repository => exact isKnown_repository
  | service => exact isKnown_service
  | controller => exact isKnown_controller

/-- A file imports the types that it speaks of. -/
theorem isKnown_of_mem_mentions {kind : Kind} {name : String}
    (h : name ∈ (classFile options model kind).mentions) :
    IsKnown (classFile options model kind).imports name := by
  rcases List.mem_append.mp h with h | h
  · rcases List.mem_append.mp h with h | h
    · obtain ⟨decorator, hdecorator, hname⟩ := List.mem_flatMap.mp h
      exact isKnown_decorators kind decorator hdecorator name hname
    · exact isKnown_heritage kind name h
  · obtain ⟨member, hmember, hname⟩ := List.mem_flatMap.mp h
    exact isKnown_members kind member hmember name hname

end Files

/-- No class of a module is a plain type: each has more characters. -/
theorem Symbols.AreWords.className_not_mem_plainTypes {symbols : Symbols} (h : symbols.AreWords)
    (kind : Kind) : symbols.className kind ∉ plainTypes := by
  have hshort : ∀ type ∈ plainTypes, type.toList.length ≤ 6 := by decide
  intro mem
  have := hshort _ mem
  have := h.length_className kind
  omega

/-! ### The module -/

/-- An import that leads to one of some files, the only one at its path, and to what it exports. -/
def Import.LeadsInto (files : List File) (extension : String) (importing : File)
    (imported : Import) : Prop :=
  ∃ target,
    files.filter (fun file =>
      file.path = resolve importing.path imported.path ++ "." ++ extension) = [target] ∧
    exportedClasses target.content = imported.names

section Module

variable {source : String} {options : Options} {model : Model}

/-- The text of a file exports the class that the symbols name, and no other. -/
theorem exportedClasses_file (h : model.IsWellRead) (hpaths : options.imports.ArePlain) (kind : Kind) :
    exportedClasses (file options model kind).content =
      [(Symbols.ofName model.name).className kind] := by
  rw [← classFile_name options]
  exact ClassFile.exportedClasses_render (classFile_isPlain h hpaths kind) options.indent

/-- Among the files of a module, only one has the path of a file. -/
theorem filter_path_bundle (h : model.IsWellRead) (hextension : '/' ∉ options.extension.toList)
    (target : Kind) :
    (bundle options model).filter
        (fun other => other.path = (file options model target).path) =
      [file options model target] := by
  have hstem := (Symbols.areWords_ofName h.name).not_mem_stem (c := '/') (by decide) (by decide)
  have hpath : ∀ kind, (file options model kind).path = (file options model target).path ↔
      kind = target :=
    fun kind => ⟨Kind.path_injective hstem hextension, fun h => h ▸ rfl⟩
  rw [bundle_eq, List.filter_map]
  simp only [Function.comp_def, hpath]
  cases target with
  | createDto | updateDto => rfl
  | repository | service | controller | wiring => rfl

/-- The import of a sibling leads to its file, because paths in the module tell its files apart. -/
theorem Import.Origin.leadsInto (h : model.IsWellRead) (hpaths : options.imports.ArePlain)
    (hextension : '/' ∉ options.extension.toList) {kind : Kind} {imported : Import}
    (horigin : imported.Origin options model kind) (hconfigured : imported.path ∉ options.imports.all)
    (hpackage : imported.path ∉ packages) :
    imported.LeadsInto (bundle options model) options.extension (file options model kind) := by
  cases horigin with
  | package _ mem_packages => exact absurd mem_packages hpackage
  | configured _ mem_all => exact absurd mem_all hconfigured
  | sibling target reach =>
    have hstem := (Symbols.areWords_ofName h.name).not_mem_stem (c := '/') (by decide) (by decide)
    refine ⟨file options model target, ?_, exportedClasses_file h hpaths target⟩
    have hresolve : resolve (file options model kind).path
        (specifier (Symbols.ofName model.name).stem kind target) ++ "." ++ options.extension =
          (file options model target).path := by
      rw [file, resolve_specifier hstem hextension reach]
      rfl
    rw [hresolve]
    exact filter_path_bundle h hextension target

/-- The files of a module import no class from anywhere but a package, a configured path, or the
file of the module that exports it; and they import every class of the module that they mention. -/
theorem bundle_closed (hmodel : model ∈ (Document.ofSource source).models)
    (hpaths : options.imports.ArePlain) (hextension : '/' ∉ options.extension.toList) :
    ∀ file ∈ bundle options model,
      (∀ line ∈ lines file.content.toList, importMark.toList <+: line →
        ∃ imported, Import.ofLine? line = some imported ∧
          (imported.path ∉ options.imports.all → imported.path ∉ packages →
            imported.LeadsInto (bundle options model) options.extension file)) ∧
      ∀ target : Kind,
        (Symbols.ofName model.name).className target ∈
            (classFile options model file.kind).mentions →
          ∃ imported ∈ importsOf file.content,
            (Symbols.ofName model.name).className target ∈ imported.names := by
  have h := Schema.isWellRead_of_mem_models hmodel
  intro importing hmem
  obtain ⟨kind, rfl⟩ := mem_bundle_iff.mp hmem
  have hplain := classFile_isPlain h hpaths kind
  constructor
  · intro line hline hmark
    obtain ⟨imported, himported, rfl⟩ := ClassFile.exists_import_of_prefix hplain hline hmark
    exact ⟨imported, Import.ofLine?_text (hplain.imports imported himported),
      (origin_of_mem_imports h kind imported himported).leadsInto h hpaths hextension⟩
  · intro target hmention
    rw [file, ClassFile.importsOf_render hplain]
    rcases isKnown_of_mem_mentions hmention with hplainType | hbound
    · exact absurd hplainType
        ((Symbols.areWords_ofName h.name).className_not_mem_plainTypes target)
    · exact hbound

end Module

/-- A schema of one model. -/
def productSchema : String := "model Product \x7b\n  id Int @id\n\x7d\n"

/-- The model of `productSchema`. -/
def product : Model where
  name := "Product"
  fields := [⟨"id", "Int", false, true, false, false, false, none, 2⟩]
  compositeId := none

/-- The schema is read as this model. -/
theorem product_mem_models : product ∈ (Document.ofSource productSchema).models := by
  have hmodels : (Document.ofSource productSchema).models = [product] := by decide
  simp [hmodels]

/-- An import that the service of `product` makes. -/
def productRepositoryImport : Import := ⟨["ProductRepository"], "./product.repository"⟩

theorem productRepositoryImport_isPlain : productRepositoryImport.IsPlain :=
  ⟨by decide, by decide, by decide⟩

theorem productRepositoryImport_mem_lines (extension : String) :
    productRepositoryImport.text.toList ∈
      lines (file { extension } product .service).content.toList := by
  have hplain : (classFile { extension } product .service).IsPlain :=
    classFile_isPlain (Schema.isWellRead_of_mem_models product_mem_models)
      (by decide : ImportPaths.ArePlain {}) .service
  have hmem : productRepositoryImport ∈ (classFile { extension } product .service).imports :=
    (by decide : productRepositoryImport ∈ serviceImports {} product)
  rw [file, ClassFile.lines_render hplain]
  exact List.mem_append_left _ (List.mem_map_of_mem hmem)

/-- The service of `product` imports its repository from the one file that exports it. -/
theorem bundle_closed_product :
    productRepositoryImport.LeadsInto (bundle {} product) "ts" (file {} product .service) ∧
      ∃ imported ∈ importsOf (file {} product .service).content,
        "ProductRepository" ∈ imported.names := by
  obtain ⟨himports, hmentions⟩ := bundle_closed product_mem_models (by decide) (by decide)
    (file {} product .service) (mem_bundle_iff.mpr ⟨.service, rfl⟩)
  constructor
  · obtain ⟨imported, hread, hleads⟩ := himports _ (productRepositoryImport_mem_lines "ts")
      (by decide)
    rw [Import.ofLine?_text productRepositoryImport_isPlain] at hread
    obtain rfl := Option.some.inj hread
    exact hleads (by decide) (by decide)
  · exact hmentions .repository (by decide)

/-- An extension that goes through a directory moves the importing file, so that its imports lead
elsewhere. -/
theorem not_forall_bundle_closed :
    ¬ ∀ (source : String) (options : Options) (model : Model),
      model ∈ (Document.ofSource source).models → options.imports.ArePlain →
        ∀ file ∈ bundle options model, ∀ line ∈ lines file.content.toList,
          importMark.toList <+: line →
            ∃ imported, Import.ofLine? line = some imported ∧
              (imported.path ∉ options.imports.all → imported.path ∉ packages →
                imported.LeadsInto (bundle options model) options.extension file) := by
  intro h
  obtain ⟨imported, hread, hleads⟩ := h productSchema { extension := "a/b" } product
    product_mem_models (by decide) (file { extension := "a/b" } product .service)
    (mem_bundle_iff.mpr ⟨.service, rfl⟩) _ (productRepositoryImport_mem_lines "a/b")
    (by decide)
  rw [Import.ofLine?_text productRepositoryImport_isPlain] at hread
  obtain rfl := Option.some.inj hread
  obtain ⟨target, hfilter, _⟩ := hleads (by decide) (by decide)
  have hresolve : resolve (file { extension := "a/b" } product .service).path
      productRepositoryImport.path = "product.service.a/product.repository" := by
    decide
  have hpaths : (bundle { extension := "a/b" } product).map File.path =
      ["dto/create-product.dto.a/b", "dto/update-product.dto.a/b", "product.repository.a/b",
        "product.service.a/b", "product.controller.a/b", "product.module.a/b"] := by
    decide
  have hmem : target ∈ [target] := List.mem_singleton_self target
  rw [← hfilter, hresolve] at hmem
  obtain ⟨htarget, hpath⟩ := List.mem_filter.mp hmem
  have := List.mem_map_of_mem (f := File.path) htarget
  rw [hpaths, of_decide_eq_true hpath] at this
  exact absurd this (by decide)

end Scaffold.Artifact
