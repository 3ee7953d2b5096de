import Scaffold.Disk.Access
import Scaffold.Settings.Decode

/-!
Settings from a disk. A settings file that is asked for has to exist; without one asked for, the
file of the usual name counts if there is one, and the defaults do otherwise.
-/

namespace Scaffold.Settings

open Disk (Readable)

/-- The usual name of the settings file. -/
def fileName : String := "nest-modgen.toml"

/-- Settings, and the file that they were read from. -/
structure Loaded where
  settings : Settings
  source : Option String
deriving DecidableEq, Repr

/-- The settings in a file. -/
def loadFile {m : Type → Type} [Monad m] [Readable m] (path : String) :
    m (Except SettingsError Loaded) := do
  match ← Readable.readText path with
  | .error fault => return .error (.unreadable path fault)
  | .ok text =>
    match ofText? text with
    | none => return .error (.malformed path)
    | some settings => return .ok ⟨settings, some path⟩

/-- The settings to use, given the file that is asked for, if one is. -/
def load {m : Type → Type} [Monad m] [Readable m] (asked : Option String) :
    m (Except SettingsError Loaded) := do
  let path := asked.getD fileName
  match ← Readable.standing? path, asked with
  | some _, _ => loadFile path
  | none, some path => return .error (.missing path)
  | none, none => return .ok ⟨{}, none⟩

end Scaffold.Settings
