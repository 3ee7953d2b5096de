import Scaffold.Disk.Fault

/-!
Paths as text. A path is joined and cut without looking at a disk: `join` puts one slash between
two parts unless there is one, `steps` are the parts that a path goes through, `parent?` is the
path without its last step. `faultOfPath?` says what is wrong with a path whatever the disk holds.
-/

namespace Scaffold.Disk

/-- A path and a name inside it. Nothing is put before a name without a path. -/
def join (base name : String) : String :=
  if base.isEmpty then name
  else if base.toList.getLast? = some '/' then base ++ name
  else base ++ "/" ++ name

/-- The texts between the slashes of a path. -/
def segments (path : String) : List String :=
  (path.toList.splitOn '/').map String.ofList

/-- The steps of a path, one after the other. Each is a name, or one of the two steps that stay
in a directory and leave it. -/
def steps (path : String) : List String :=
  (segments path).filter fun segment => !segment.isEmpty

/-- The step that stays in a directory. -/
def stay : String := "."

/-- The step that leaves a directory. -/
def leave : String := ".."

/-- How many bytes a path may have. -/
def maxPathBytes : Nat := 4095

/-- How many bytes a step of a path may have. -/
def maxStepBytes : Nat := 255

/-- Why no disk can take a path, if there is such a reason. -/
def faultOfPath? (path : String) : Option Fault :=
  if path.toList.contains '\x00' then some .holdsNull
  else if maxPathBytes < path.utf8ByteSize then some .tooLong
  else none

/-- Whether a path begins at the root of the system. -/
def isAbsolute (path : String) : Bool :=
  path.toList.head? == some '/'

/-- Whether a path ends in a slash, so that it can only mean a directory. -/
def wantsDirectory (path : String) : Bool :=
  path.toList.getLast? == some '/'

/-- A path, given backwards, without the slashes and single dots at its end. -/
def dropIdleEnd : List Char → List Char
  | '/' :: rest => dropIdleEnd rest
  | '.' :: '/' :: rest => dropIdleEnd rest
  | path => path

/-- The path without its last step and what leads up to it. A path of one step has the empty
path or the root as its parent; a path without steps has none. -/
def parent? (path : String) : Option String :=
  let backwards := dropIdleEnd path.toList.reverse
  if backwards.isEmpty then none
  else
    let before := backwards.dropWhile fun c => c != '/'
    let kept := dropIdleEnd before
    some (if kept.isEmpty && !before.isEmpty then "/" else String.ofList kept.reverse)

end Scaffold.Disk
