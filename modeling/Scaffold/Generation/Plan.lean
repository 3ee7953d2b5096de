import Scaffold.Artifact.Bundle
import Scaffold.Disk.Path

/-!
Plans: the files of one module and where they go. A plan is made without looking at a disk.
-/

namespace Scaffold.Generation

open Artifact (File Options Symbols)
open Schema (Model)

/-- What is generated for one model. -/
structure Plan where
  /-- The declared name of the model. -/
  model : String
  /-- The directory of the module. -/
  directory : String
  /-- The files, in the order of writing, with their paths inside the directory. -/
  files : List File
deriving DecidableEq, Repr

namespace Plan

/-- The plan for a model, given the directory that holds all modules. -/
def ofModel (modulesRoot : String) (options : Options) (model : Model) : Plan where
  model := model.name
  directory := Disk.join modulesRoot (Symbols.ofName model.name).stem
  files := Artifact.bundle options model

/-- The path that a file of the plan is written to. -/
def target (plan : Plan) (file : File) : String :=
  Disk.join plan.directory file.path

/-- The directory of the data transfer objects. -/
def dtoDirectory (plan : Plan) : String :=
  Disk.join plan.directory Artifact.dtoDirectory

/-- The paths of the files, in the order of writing. -/
def targets (plan : Plan) : List String :=
  plan.files.map plan.target

end Plan

end Scaffold.Generation
