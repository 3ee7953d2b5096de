import Scaffold.Console.Run
import Scaffold.Disk.Content
import Scaffold.Disk.Path
import Scaffold.Text.NameForm

/-!
The program: it runs the command that its arguments mean on the disk of the system, prints the
report, and ends with the status of the run. All decisions are made in `Console.run`.
-/

namespace Scaffold

open Disk (Content Fault Readable Standing Writable)

/-- The fault with a number of the system. Numbers may arrive as negative words. -/
def faultOfNumber (number : UInt32) (details : String) : Fault :=
  let number := if number < 0x80000000 then number else 0 - number
  if number = 2 then .missing
  else if number = 17 then .exists
  else if number = 20 then .notDirectory
  else if number = 21 then .isDirectory
  else if number = 36 then .tooLong
  else .other s!"{Text.capitalize details} (os error {number})"

/-- The fault that an error of the system is. -/
def faultOfError : IO.Error → Fault
  | .alreadyExists _ number details => faultOfNumber number details
  | .otherError number details => faultOfNumber number details
  | .resourceBusy number details => faultOfNumber number details
  | .resourceVanished number details => faultOfNumber number details
  | .unsupportedOperation number details => faultOfNumber number details
  | .hardwareFault number details => faultOfNumber number details
  | .unsatisfiedConstraints number details => faultOfNumber number details
  | .illegalOperation number details => faultOfNumber number details
  | .protocolError number details => faultOfNumber number details
  | .timeExpired number details => faultOfNumber number details
  | .interrupted _ number details => faultOfNumber number details
  | .noFileOrDirectory _ number details => faultOfNumber number details
  | .invalidArgument _ number details => faultOfNumber number details
  | .permissionDenied _ number details => faultOfNumber number details
  | .resourceExhausted _ number details => faultOfNumber number details
  | .inappropriateType _ number details => faultOfNumber number details
  | .noSuchThing _ number details => faultOfNumber number details
  | .unexpectedEof => .other "unexpected end of file"
  | .userError details => .other details

/-- The result of an action, or the fault that it ends with. -/
def attempt {α : Type} (action : IO α) : IO (Except Fault α) := do
  match ← action.toBaseIO with
  | .ok value => return .ok value
  | .error error => return .error (faultOfError error)

/-- The result of a request for a path, or the fault that it ends with. A path that no disk can
take is not asked for. -/
def attemptAt {α : Type} (path : String) (action : IO α) : IO (Except Fault α) := do
  match Disk.faultOfPath? path with
  | some fault => return .error fault
  | none => attempt action

/-- What stands at a path of the system: a directory can be opened but not read. -/
def systemStanding? (path : String) : IO (Option Standing) := do
  match ← attemptAt path (IO.FS.withFile path .read fun file => file.read 1) with
  | .ok _ => return some .file
  | .error .isDirectory => return some .directory
  | .error .missing => return none
  | .error .notDirectory => return none
  | .error .holdsNull => return none
  | .error .tooLong => return none
  | .error _ => return some .file

/-- The text of a file of the system. -/
def systemText (path : String) : IO (Except Fault String) := do
  match ← attemptAt path (IO.FS.readBinFile path) with
  | .error fault => return .error fault
  | .ok bytes =>
    match Content.ofBytes bytes with
    | .text held => return .ok held
    | .binary _ => return .error .notText

/-- The paths that end at a slash of a path or at its end, from the shortest to the longest. -/
def leadingPaths (path : String) : List String :=
  let segments := Disk.segments path
  ((List.range segments.length).map fun k => "/".intercalate (segments.take (k + 1))).filter
    fun leading => !leading.isEmpty

/-- Makes directories of the system, one after the other. Those that exist are left alone. -/
def makeSystemDirectories : List String → IO (Except Fault Unit)
  | [] => return .ok ()
  | path :: rest => do
    match ← attempt (IO.FS.createDir path) with
    | .ok () => makeSystemDirectories rest
    | .error .exists =>
      if rest.isEmpty && (← systemStanding? path) != some .directory then return .error .exists
      makeSystemDirectories rest
    | .error fault => return .error fault

instance : Readable IO where
  standing? := systemStanding?
  readText := systemText

instance : Writable IO where
  makeDirectories path :=
    match Disk.faultOfPath? path with
    | some fault => return .error fault
    | none => makeSystemDirectories (leadingPaths path)
  writeText path text := attemptAt path (IO.FS.writeFile path text)

/-- Whether a variable of the environment switches something on. -/
def isOn (value : Option String) : Bool :=
  value.any fun text => text != "0"

/-- Whether text is coloured: the environment may force or forbid it, and otherwise it depends
on whether a terminal shows it. -/
def wantsColours : IO Bool := do
  if isOn (← IO.getEnv "CLICOLOR_FORCE") then return true
  if (← IO.getEnv "NO_COLOR").isSome then return false
  let allowed := (← IO.getEnv "CLICOLOR").all fun text => text != "0"
  return allowed && (← (← IO.getStdout).isTty)

end Scaffold

open Scaffold in
/-- Runs the program. -/
def main (arguments : List String) : IO UInt32 := do
  match Console.Invocation.ofArguments? arguments with
  | none =>
    IO.eprintln Console.callText
    return Console.misuseStatus.toUInt32
  | some invocation =>
    let coloured ← wantsColours
    let report : Console.Report ← Console.run invocation.command
    for line in report.log invocation.verbose do
      IO.eprintln line
    IO.print (report.output coloured)
    IO.eprint (report.complaint coloured)
    return report.status.toUInt32
