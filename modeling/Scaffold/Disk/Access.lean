import Scaffold.Disk.Fault

/-!
Access to a disk, in two grades: what only reads it, and what may change it as well. Programs
are written over these requests, so they run on a real disk and on a tree in memory alike.
-/

namespace Scaffold.Disk

/-- Requests that read a disk. -/
class Readable (m : Type → Type) where
  /-- What stands at a path, if anything does. -/
  standing? : String → m (Option Standing)
  /-- The text of a file. -/
  readText : String → m (Except Fault String)

/-- Requests that read and change a disk. -/
class Writable (m : Type → Type) extends Readable m where
  /-- Makes a directory and the directories above it that are missing. -/
  makeDirectories : String → m (Except Fault Unit)
  /-- Gives a file a new text; the directory it stands in has to exist. -/
  writeText : String → String → m (Except Fault Unit)

end Scaffold.Disk
