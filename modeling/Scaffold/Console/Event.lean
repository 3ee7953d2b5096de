import Scaffold.Generation.Generator

/-!
The log: what happened during a run, step by step. Problems of the schema are always logged, the
other events only where that is asked for.
-/

namespace Scaffold.Console

open Artifact (Stage)
open Generation (Plan SchemaFile Written)
open Schema (Capability Diagnostic Model)

/-- Something that happened. -/
inductive Event where
  | settingsRead (path : String)
  | schemaRead (path : String) (bytes : Nat)
  | modelRead (model : String) (fields : Nat) (capability : Capability)
  | problemFound (diagnostic : Diagnostic)
  | stageDone (model : String) (stage : Stage) (files : Nat)
  | planned (model directory : String) (files : Nat)
  | fileWritten (path : String) (bytes : Nat)
deriving DecidableEq, Repr

/-- How much an event matters. -/
inductive Level where
  | debug
  | info
  | warning
deriving DecidableEq, Repr

/-- The label of a level. -/
def Level.label : Level → String
  | .debug => "DEBUG"
  | .info => "INFO"
  | .warning => "WARN"

namespace Event

/-- The level of an event. -/
def level : Event → Level
  | .problemFound _ => .warning
  | .fileWritten .. => .info
  | _ => .debug

/-- A hexadecimal number of two digits. -/
def hexByte (n : Nat) : String :=
  String.ofList (Nat.toDigits 16 n)

/-- A character of a message. Characters that could steer a terminal are spelled out. -/
def escapeControl (c : Char) : List Char :=
  if c = '\x1b' || c = '\x7f' then ("\\x" ++ hexByte c.toNat).toList
  else if c = '\x07' || c = '\x08' || c = '\x0c' then ("\\x0" ++ hexByte c.toNat).toList
  else if 0x80 ≤ c.toNat && c.toNat ≤ 0x9F then ("\\u\x7b" ++ hexByte c.toNat ++ "\x7d").toList
  else [c]

/-- A name in a message. -/
def quotedName (name : String) : String := "\"" ++ name ++ "\""

/-- What is said of an event. -/
def message : Event → String
  | .settingsRead path => s!"loaded configuration path={path}"
  | .schemaRead path bytes => s!"read schema path={path} bytes={bytes}"
  | .modelRead model fields capability =>
    s!"parsed model model={quotedName model} fields={fields} " ++
      s!"capability={quotedName capability.label}"
  | .problemFound diagnostic =>
    String.ofList (diagnostic.display.toList.flatMap escapeControl) ++ s!" line={diagnostic.line}"
  | .stageDone model stage files =>
    s!"emitted artifacts model={quotedName model} emitter={quotedName stage.name} files={files}"
  | .planned model directory files =>
    s!"planned module model={quotedName model} dir={directory} files={files}"
  | .fileWritten path bytes => s!"wrote file path={path} bytes={bytes}"

/-- The line of an event in the log. -/
def display (event : Event) : String :=
  event.level.label ++ " " ++ event.message

/-- Whether an event is logged. -/
def isShown (verbose : Bool) (event : Event) : Bool :=
  verbose || event.level == .warning

/-- The reading of a schema: the file, its models, and its problems. -/
def ofSchema (schema : SchemaFile) : List Event :=
  .schemaRead schema.path schema.bytes ::
    (schema.document.models.map fun model =>
      .modelRead model.name model.fields.length model.capability) ++
    schema.document.diagnostics.map .problemFound

/-- The making of a plan: the stages, and the plan itself. -/
def ofPlan (plan : Plan) : List Event :=
  (Stage.all.map fun stage => .stageDone plan.model stage stage.kinds.length) ++
    [.planned plan.model plan.directory plan.files.length]

/-- The writing of a file. A preview is no event. -/
def ofWritten? : Written → Option Event
  | .onDisk path bytes => some (.fileWritten path bytes)
  | .previewed .. => none

end Event

end Scaffold.Console
