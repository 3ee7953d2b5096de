import Scaffold.Artifact.Service

/-!
Controllers: the class that answers requests. A basic controller has five documented endpoints
under the model's route and passes each request on to the service; a rich one inherits its
endpoints.
-/

namespace Scaffold.Artifact

open Schema (Model Capability)

/-- The imports of a controller. -/
def controllerImports (options : Options) (model : Model) : List Import :=
  let symbols := Symbols.ofName model.name
  let always : List Import :=
    [⟨[model.name], options.imports.prismaClient⟩,
      ⟨[symbols.service], symbols.sibling "service"⟩]
  match model.capability with
  | .rich =>
    [⟨["Controller"], "@nestjs/common"⟩, ⟨["ApiTags"], "@nestjs/swagger"⟩,
      ⟨["BaseController"], options.imports.baseController⟩] ++ always
  | .basic =>
    [⟨["Controller", "Get", "Post", "Body", "Patch", "Param", "Delete", "ParseIntPipe"],
        "@nestjs/common"⟩,
      ⟨["ApiTags", "ApiOperation", "ApiResponse"], "@nestjs/swagger"⟩] ++ always ++
      dtoImports symbols

/-- The decorators of an endpoint: its route, its summary, and its response. -/
def endpointDecorators (verb summary : String) (status : Nat) (description : String) :
    List String :=
  [verb,
    "@ApiOperation(" ++ braced ("summary: " ++ quoted summary) ++ ")",
    "@ApiResponse(" ++
      braced ("status: " ++ toString status ++ ", description: " ++ quoted description) ++ ")"]

/-- The parameter that a request's body arrives in. -/
def bodyParameter (name type : String) : Parameter :=
  { decorator := some "@Body()", name, type }

/-- The endpoints of a basic controller. -/
def endpoints (model : Model) : List Method :=
  let symbols := Symbols.ofName model.name
  let it := symbols.phrase
  let service := "this." ++ symbols.serviceProperty
  let identity := model.identity
  let target := "(" ++ quoted (route identity) ++ ")"
  let parameters := routeParameters identity
  let arguments := identityArguments identity
  [{ decorators :=
       endpointDecorators "@Post()" ("Create " ++ it) 201
         ("The " ++ it ++ " has been successfully created.")
     isAsync := false, name := "create"
     parameters := [bodyParameter "createDto" symbols.createDto]
     result := model.name
     body := ⟨service, "create", ["createDto"]⟩ },
    { decorators :=
        endpointDecorators "@Get()" ("Get all " ++ it ++ "s") 200 ("Return all " ++ it ++ "s.")
      isAsync := false, name := "findAll", parameters := [], result := model.name ++ "[]"
      body := ⟨service, "findAll", []⟩ },
    { decorators :=
        endpointDecorators ("@Get" ++ target) ("Get " ++ it ++ " " ++ lookupPhrase identity) 200
          ("Return the " ++ it ++ ".")
      isAsync := false, name := "findOne", parameters, result := model.name ++ " | null"
      body := ⟨service, finder identity, arguments⟩ },
    { decorators :=
        endpointDecorators ("@Patch" ++ target) ("Update " ++ it) 200
          ("The " ++ it ++ " has been successfully updated.")
      isAsync := false, name := "update"
      parameters := parameters ++ [bodyParameter "updateDto" symbols.updateDto]
      result := model.name
      body := ⟨service, "update", arguments ++ ["updateDto"]⟩ },
    { decorators :=
        endpointDecorators ("@Delete" ++ target) ("Delete " ++ it) 200
          ("The " ++ it ++ " has been successfully deleted.")
      isAsync := false, name := "remove", parameters, result := model.name
      body := ⟨service, "delete", arguments⟩ }]

/-- The members of a rich controller. -/
def richControllerMembers (model : Model) : List Member :=
  [.fixed [⟨1, "protected resourceName = " ++ quoted model.name ++ ";"⟩],
    .injection { toBase := true, name := "service", type := (Symbols.ofName model.name).service },
    .fixed [⟨1, "// Add custom endpoints here"⟩]]

/-- The controller of a model. -/
def controller (options : Options) (model : Model) : ClassFile :=
  let symbols := Symbols.ofName model.name
  { imports := controllerImports options model
    decorators := [.plain "ApiTags" (quoted symbols.stem), .plain "Controller" (quoted symbols.stem)]
    name := symbols.controller
    heritage :=
      match model.capability with
      | .rich => .base "BaseController" model.name
      | .basic => .nothing
    members :=
      match model.capability with
      | .rich => richControllerMembers model
      | .basic =>
        .injection { toBase := false, name := symbols.serviceProperty, type := symbols.service } ::
          (endpoints model).map .method }

end Scaffold.Artifact
