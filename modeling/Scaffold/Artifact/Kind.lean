/-!
The six files of a generated module, and where each stands in the module's directory.
-/

namespace Scaffold.Artifact

/-- The kinds of generated files. -/
inductive Kind where
  | createDto
  | updateDto
  | repository
  | service
  | controller
  | wiring
deriving DecidableEq, Repr

/-- All kinds, in the order in which files are written. -/
def Kind.all : List Kind :=
  [.createDto, .updateDto, .repository, .service, .controller, .wiring]

/-- The directory of the data transfer objects. -/
def dtoDirectory : String := "dto"

/-- The name of a data transfer object's file, without its extension. -/
def dtoFile (purpose stem : String) : String :=
  purpose ++ "-" ++ stem ++ ".dto"

/-- The path of a file, relative to the module's directory and without its extension. -/
def Kind.barePath (stem : String) : Kind → String
  | .createDto => dtoDirectory ++ "/" ++ dtoFile "create" stem
  | .updateDto => dtoDirectory ++ "/" ++ dtoFile "update" stem
  | .repository => stem ++ ".repository"
  | .service => stem ++ ".service"
  | .controller => stem ++ ".controller"
  | .wiring => stem ++ ".module"

/-- The path of a file, relative to the module's directory. -/
def Kind.path (kind : Kind) (stem extension : String) : String :=
  kind.barePath stem ++ "." ++ extension

theorem Kind.mem_all (kind : Kind) : kind ∈ all := by
  cases kind <;> decide

end Scaffold.Artifact
