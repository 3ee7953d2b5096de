/-!
What a disk refuses, in the words of the system.
-/

namespace Scaffold.Disk

/-- Why a disk refuses a request. -/
inductive Fault where
  /-- Nothing stands at the path. -/
  | missing
  /-- Something stands at the path already. -/
  | exists
  /-- A step of the path is not a directory. -/
  | notDirectory
  /-- The path means a directory. -/
  | isDirectory
  /-- The bytes of the file are no UTF-8 text. -/
  | notText
  /-- The path holds a null character. -/
  | holdsNull
  /-- The path or one of its steps has too many bytes. -/
  | tooLong
  /-- Any other refusal, in the system's words. -/
  | other (description : String)
deriving DecidableEq, Repr

/-- The wording of a fault. -/
def Fault.message : Fault → String
  | .missing => "No such file or directory (os error 2)"
  | .exists => "File exists (os error 17)"
  | .notDirectory => "Not a directory (os error 20)"
  | .isDirectory => "Is a directory (os error 21)"
  | .notText => "stream did not contain valid UTF-8"
  | .holdsNull => "file name contained an unexpected NUL byte"
  | .tooLong => "File name too long (os error 36)"
  | .other description => description

/-- What stands at a path. -/
inductive Standing where
  | file
  | directory
deriving DecidableEq, Repr

end Scaffold.Disk
