import Scaffold.Artifact.Lookup
import Scaffold.Artifact.Symbols

/-!
Services: the class between controller and repository. A basic service passes each call on to
the repository; a rich one extends the base service and leaves room for validation.
-/

namespace Scaffold.Artifact

open Schema (Model Capability)

/-- The imports of the two data transfer objects, from the module's directory. -/
def dtoImports (symbols : Symbols) : List Import :=
  [⟨[symbols.createDto], symbols.dtoImport "create"⟩,
    ⟨[symbols.updateDto], symbols.dtoImport "update"⟩]

/-- The imports of a service. A rich service does not speak of the data transfer objects. -/
def serviceImports (options : Options) (model : Model) : List Import :=
  let symbols := Symbols.ofName model.name
  let injectable : List Import := [⟨["Injectable"], "@nestjs/common"⟩]
  let always : List Import :=
    [⟨[model.name], options.imports.prismaClient⟩,
      ⟨[symbols.repository], symbols.sibling "repository"⟩]
  match model.capability with
  | .rich => injectable ++ [⟨["BaseService"], options.imports.baseService⟩] ++ always
  | .basic => injectable ++ always ++ dtoImports symbols

/-- A validation method, commented out, for the user to complete. -/
def validationSketch (head remark : String) : List Line :=
  [⟨1, "// protected async " ++ head ++ ": Promise<void> \x7b"⟩,
    ⟨1, "//   // Custom " ++ remark ++ " validation logic"⟩,
    ⟨1, "// \x7d"⟩]

/-- The members of a rich service. -/
def richServiceMembers (model : Model) : List Member :=
  let data := "data: Partial<" ++ model.name ++ ">"
  [.fixed [⟨1, "protected entityName = " ++ quoted model.name ++ ";"⟩],
    .injection
      { toBase := true, name := "repository", type := (Symbols.ofName model.name).repository },
    .fixed (⟨1, "// Add custom validation methods here"⟩ ::
      validationSketch ("validateCreate(" ++ data ++ ")") "create"),
    .fixed (validationSketch ("validateUpdate(id: number, " ++ data ++ ")") "update")]

/-- The methods of a basic service. -/
def serviceMethods (model : Model) : List Method :=
  let symbols := Symbols.ofName model.name
  let repository := "this." ++ symbols.repositoryProperty
  let identity := model.identity
  let parameters := identityParameters identity
  let arguments := identityArguments identity
  [{ isAsync := true, name := "findAll", parameters := [], result := model.name ++ "[]"
     body := ⟨repository, "findAll", []⟩ },
    { isAsync := true, name := finder identity, parameters, result := model.name ++ " | null"
      body := ⟨repository, finder identity, arguments⟩ },
    { isAsync := true, name := "create"
      parameters := [{ name := "createDto", type := symbols.createDto }]
      result := model.name
      body := ⟨repository, "create", ["createDto"]⟩ },
    { isAsync := true, name := "update"
      parameters := parameters ++ [{ name := "updateDto", type := symbols.updateDto }]
      result := model.name
      body := ⟨repository, "update", arguments ++ ["updateDto"]⟩ },
    { isAsync := true, name := "delete", parameters, result := model.name
      body := ⟨repository, "delete", arguments⟩ }]

/-- The service of a model. -/
def service (options : Options) (model : Model) : ClassFile :=
  let symbols := Symbols.ofName model.name
  { imports := serviceImports options model
    decorators := [.plain "Injectable" ""]
    name := symbols.service
    heritage :=
      match model.capability with
      | .rich => .base "BaseService" model.name
      | .basic => .nothing
    members :=
      match model.capability with
      | .rich => richServiceMembers model
      | .basic =>
        .injection
            { toBase := false, name := symbols.repositoryProperty, type := symbols.repository } ::
          (serviceMethods model).map .method }

end Scaffold.Artifact
