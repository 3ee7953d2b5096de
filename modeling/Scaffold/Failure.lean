import Scaffold.Settings.Basic

/-!
Failures: why a run ends without what it was asked for, and how that is worded.
-/

namespace Scaffold

open Disk (Fault)

/-- Why generated files are not on the disk. -/
inductive WriteError where
  /-- A directory cannot be made. -/
  | directory (path : String) (fault : Fault)
  /-- A file cannot be written. -/
  | file (path : String) (fault : Fault)
deriving DecidableEq, Repr

/-- The wording of a write error. -/
def WriteError.message : WriteError → String
  | .directory path fault => s!"Failed to create directory {path}: {fault.message}"
  | .file path fault => s!"Failed to write file {path}: {fault.message}"

/-- Why a run fails. -/
inductive Failure where
  /-- The schema cannot be read. -/
  | schema (path : String) (fault : Fault)
  | settings (error : Settings.SettingsError)
  | write (error : WriteError)
  /-- No model of the schema answers to the name. -/
  | modelNotFound (name : String) (available : List String)
  /-- A file is not replaced unless that is asked for. -/
  | alreadyExists (path : String)
  /-- The disk refuses anything else. -/
  | disk (fault : Fault)
deriving DecidableEq, Repr

/-- The wording of a failure. -/
def Failure.message : Failure → String
  | .schema path fault => s!"Failed to load schema: Failed to read schema {path}: {fault.message}"
  | .settings error => s!"Failed to load configuration: {error.message}"
  | .write error => s!"Failed to write output: {error.message}"
  | .modelNotFound name available =>
    let hint :=
      if available.isEmpty then "" else " (available: " ++ ", ".intercalate available ++ ")"
    s!"Model \"{name}\" not found in schema" ++ hint
  | .alreadyExists path => s!"File already exists: {path} (use --force to overwrite)"
  | .disk fault => s!"IO error: {fault.message}"

end Scaffold
