import Scaffold.Artifact.Kind
import Scaffold.Text.NameForm

/-!
The names that generated code uses for one model: classes, injected properties, import paths.
-/

namespace Scaffold.Artifact

/-- The names that are derived from the name of a model. -/
structure Symbols where
  /-- The stem of class names. -/
  entity : String
  /-- The entity type of the database client: the name as declared. -/
  declared : String
  /-- The accessor of the database client. -/
  accessor : String
  /-- The stem of file names and routes. -/
  stem : String
  /-- The name in sentences. -/
  phrase : String
deriving DecidableEq, Repr

namespace Symbols

/-- The names of a model. -/
def ofName (name : String) : Symbols where
  entity := Text.capitalize name
  declared := name
  accessor := Text.uncapitalize name
  stem := Text.hyphenate name
  phrase := Text.lowercase name

def createDto (symbols : Symbols) : String := "Create" ++ symbols.entity ++ "Dto"

def updateDto (symbols : Symbols) : String := "Update" ++ symbols.entity ++ "Dto"

def repository (symbols : Symbols) : String := symbols.entity ++ "Repository"

def service (symbols : Symbols) : String := symbols.entity ++ "Service"

def controller (symbols : Symbols) : String := symbols.entity ++ "Controller"

def wiring (symbols : Symbols) : String := symbols.entity ++ "Module"

/-- The class that a file declares. -/
def className (symbols : Symbols) : Kind → String
  | .createDto => symbols.createDto
  | .updateDto => symbols.updateDto
  | .repository => symbols.repository
  | .service => symbols.service
  | .controller => symbols.controller
  | .wiring => symbols.wiring

/-- The injected repository. -/
def repositoryProperty (symbols : Symbols) : String := symbols.accessor ++ "Repository"

/-- The injected service. -/
def serviceProperty (symbols : Symbols) : String := symbols.accessor ++ "Service"

/-- The import path of a file beside the importing one. -/
def sibling (symbols : Symbols) (role : String) : String :=
  "./" ++ symbols.stem ++ "." ++ role

/-- The import path of a data transfer object, from the module's directory. -/
def dtoImport (symbols : Symbols) (purpose : String) : String :=
  "./" ++ dtoDirectory ++ "/" ++ dtoFile purpose symbols.stem

end Symbols

end Scaffold.Artifact
