import Scaffold.Artifact.ClassFile
import Scaffold.Artifact.Symbols
import Scaffold.Schema.Model

/-!
Data transfer objects. The object that creates an entity has one validated property for each
field of the payload; the object that updates it has the same properties, all optional.
-/

namespace Scaffold.Artifact

open Schema (Model Validator)

/-- The fields that a client hands over: all but relations, identities and lifecycle markers. -/
def payload (model : Model) : List Schema.Field :=
  model.fields.filter fun field =>
    !field.isRelation && !field.isId && !field.isLifecycleMarker

/-- Whether a client may leave a field out. -/
def mayBeLeftOut (options : Options) (model : Model) (field : Schema.Field) : Bool :=
  field.isOptional || field.hasDefault || options.optionality.forces model.name field.name

/-- The decorator that validates a property, on each element of an array. -/
def validation (validator : Validator) (eachElement : Bool) : String :=
  "@" ++ validator.decorator ++ "(" ++ (if eachElement then braced "each: true" else "") ++ ")"

/-- The property that carries a field. -/
def payloadProperty (options : Options) (model : Model) (field : Schema.Field) : Property :=
  let isOptional := mayBeLeftOut options model field
  let presence :=
    if isOptional then ["@ApiPropertyOptional()", "@IsOptional()"]
    else ["@ApiProperty()", "@IsNotEmpty()"]
  let shape := if field.isArray then ["@IsArray()"] else []
  let check := field.validator?.toList.map fun validator => validation validator field.isArray
  { decorators := presence ++ shape ++ check
    name := field.name
    isOptional
    type := field.generatedType ++ (if field.isArray then "[]" else "") }

/-- The validators that some fields use, each once, in the order of imports. -/
def usedValidators (fields : List Schema.Field) : List Validator :=
  Validator.all.filter fun validator => (fields.filterMap Schema.Field.validator?).contains validator

/-- The imports of the object that creates an entity. -/
def createDtoImports (options : Options) (model : Model) : List Import :=
  let fields := payload model
  let arrays := if fields.any Schema.Field.isArray then ["IsArray"] else []
  let decimals :=
    if fields.any fun field => field.scalar? == some .decimal then
      [⟨["Decimal"], options.imports.decimal⟩]
    else []
  [⟨["IsOptional", "IsNotEmpty"] ++ (usedValidators fields).map Validator.decorator ++ arrays,
      "class-validator"⟩,
    ⟨["ApiProperty", "ApiPropertyOptional"], "@nestjs/swagger"⟩] ++ decimals

/-- The object that creates an entity. -/
def createDto (options : Options) (model : Model) : ClassFile where
  imports := createDtoImports options model
  name := (Symbols.ofName model.name).createDto
  members := (payload model).map fun field => .property (payloadProperty options model field)

/-- The object that updates an entity. -/
def updateDto (model : Model) : ClassFile :=
  let symbols := Symbols.ofName model.name
  { imports :=
      [⟨["PartialType"], "@nestjs/swagger"⟩,
        ⟨[symbols.createDto], "./" ++ dtoFile "create" symbols.stem⟩]
    name := symbols.updateDto
    heritage := .partialOf symbols.createDto }

end Scaffold.Artifact
