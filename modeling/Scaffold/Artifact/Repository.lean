import Scaffold.Artifact.Lookup
import Scaffold.Artifact.Symbols

/-!
Repositories: the class that reads and writes the entities of a model through the database
client. A rich model's repository extends the base repository and names the fields to search.
-/

namespace Scaffold.Artifact

open Schema (Model Capability)

/-- The quoted names of the fields that a rich repository searches. -/
def searchFields (model : Model) : List String :=
  (model.fields.filter fun field =>
      field.scalar? == some .string && !field.isRelation && !field.isLifecycleMarker).map
    fun field => quoted field.name

/-- The imports of a repository. -/
def repositoryImports (options : Options) (model : Model) : List Import :=
  let base :=
    match model.capability with
    | .rich => [⟨["BaseRepository"], options.imports.baseRepository⟩]
    | .basic => []
  [⟨["Injectable"], "@nestjs/common"⟩] ++ base ++
    [⟨[model.name], options.imports.prismaClient⟩,
      ⟨["DatabaseService"], options.imports.databaseService⟩]

/-- The members of a rich repository. -/
def richRepositoryMembers (model : Model) : List Member :=
  [.fixed [⟨1, "protected model = this.prisma." ++ (Symbols.ofName model.name).accessor ++ ";"⟩],
    .injection { toBase := true, name := "prisma", type := "DatabaseService" },
    .fixed
      [opening 1 "protected getSearchFields(): string[]",
        ⟨2, "return [" ++ commaSeparated (searchFields model) ++ "];"⟩,
        closing 1]]

/-- The methods of a basic repository. -/
def repositoryMethods (model : Model) : List Method :=
  let client := "this.prisma." ++ (Symbols.ofName model.name).accessor
  let identity := model.identity
  let parameters := identityParameters identity
  let condition := "where: " ++ whereClause identity
  [{ isAsync := true, name := "findAll", parameters := [], result := model.name ++ "[]"
     body := ⟨client, "findMany", []⟩ },
    { isAsync := true, name := finder identity, parameters, result := model.name ++ " | null"
      body := ⟨client, "findUnique", [braced condition]⟩ },
    { isAsync := true, name := "create", parameters := [{ name := "data", type := "any" }]
      result := model.name
      body := ⟨client, "create", [braced "data"]⟩ },
    { isAsync := true, name := "update"
      parameters := parameters ++ [{ name := "data", type := "any" }]
      result := model.name
      body := ⟨client, "update", [braced (condition ++ ", data")]⟩ },
    { isAsync := true, name := "delete", parameters, result := model.name
      body := ⟨client, "delete", [braced condition]⟩ }]

/-- The repository of a model. -/
def repository (options : Options) (model : Model) : ClassFile where
  imports := repositoryImports options model
  decorators := [.plain "Injectable" ""]
  name := (Symbols.ofName model.name).repository
  heritage :=
    match model.capability with
    | .rich => .base "BaseRepository" model.name
    | .basic => .nothing
  members :=
    match model.capability with
    | .rich => richRepositoryMembers model
    | .basic =>
      .injection { toBase := false, name := "prisma", type := "DatabaseService" } ::
        (repositoryMethods model).map .method

end Scaffold.Artifact
