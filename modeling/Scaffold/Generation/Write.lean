import Scaffold.Disk.Access
import Scaffold.Failure
import Scaffold.Generation.Plan

/-!
Carrying out a plan. Directories come first, then the files in order, up to the first that
fails; files written before it stay. In a preview nothing on the disk changes and every file is
handed back instead.
-/

namespace Scaffold.Generation

open Disk (Readable Writable Standing)

/-- Whether files go to the disk. -/
inductive Mode where
  | disk
  | preview
deriving DecidableEq, Repr

/-- What became of one file. -/
inductive Written where
  /-- The file holds the planned text, of a size in bytes. -/
  | onDisk (path : String) (bytes : Nat)
  /-- The file would hold this text. -/
  | previewed (path content : String)
deriving DecidableEq, Repr

/-- The path of a file, written or not. -/
def Written.path : Written → String
  | .onDisk path _ => path
  | .previewed path _ => path

/-- What became of the files of a plan: those done, in order, and the error that ended the
writing early, if one did. -/
structure Progress where
  done : List Written
  error : Option WriteError
deriving DecidableEq, Repr

variable {m : Type → Type} [Monad m] [Writable m]

/-- Sees to it that a directory exists. -/
def ensureDirectory (mode : Mode) (path : String) : m (Except WriteError Unit) := do
  match mode with
  | .preview => return .ok ()
  | .disk =>
    if (← Readable.standing? path) = some .directory then return .ok ()
    match ← Writable.makeDirectories path with
    | .ok () => return .ok ()
    | .error fault => return .error (.directory path fault)

/-- Writes one file and the directory that it stands in. -/
def writeFile (mode : Mode) (path content : String) : m (Except WriteError Written) := do
  match mode with
  | .preview => return .ok (.previewed path content)
  | .disk =>
    let ready ← match Disk.parent? path with
      | some parent => ensureDirectory mode parent
      | none => pure (.ok ())
    match ready with
    | .error error => return .error error
    | .ok () =>
      match ← Writable.writeText path content with
      | .ok () => return .ok (.onDisk path content.utf8ByteSize)
      | .error fault => return .error (.file path fault)

/-- Writes files, given by path and text, up to the first that fails. -/
def writeFiles (mode : Mode) : List (String × String) → m Progress
  | [] => return ⟨[], none⟩
  | (path, content) :: rest => do
    match ← writeFile mode path content with
    | .error error => return ⟨[], some error⟩
    | .ok written =>
      let later ← writeFiles mode rest
      return { later with done := written :: later.done }

/-- Carries out a plan. -/
def Plan.write (plan : Plan) (mode : Mode) : m Progress := do
  match ← ensureDirectory mode plan.directory with
  | .error error => return ⟨[], some error⟩
  | .ok () =>
    match ← ensureDirectory mode plan.dtoDirectory with
    | .error error => return ⟨[], some error⟩
    | .ok () => writeFiles mode (plan.files.map fun file => (plan.target file, file.content))

end Scaffold.Generation
