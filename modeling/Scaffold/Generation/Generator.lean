import Scaffold.Generation.Summary
import Scaffold.Generation.Write
import Scaffold.Schema.Document

/-!
Generators: checked settings, with which the models of the schema are listed and their modules
generated. The schema is read before the first file is written.
-/

namespace Scaffold.Generation

open Disk (Readable Writable)
open Schema (Document Model)

/-- Settings that have passed all checks, and the options that they mean. -/
structure Generator where
  settings : Settings
  options : Artifact.Options
  options_eq : settings.options = .ok options

/-- A schema as it was read from a disk. -/
structure SchemaFile where
  path : String
  /-- The size of the text in bytes. -/
  bytes : Nat
  document : Document
deriving DecidableEq, Repr

/-- The schema in a file. -/
def readSchema {m : Type → Type} [Monad m] [Readable m] (path : String) :
    m (Except Failure SchemaFile) := do
  match ← Readable.readText path with
  | .error fault => return .error (.schema path fault)
  | .ok text => return .ok ⟨path, text.utf8ByteSize, Document.ofSource text⟩

/-- The model of a document that answers to a name. -/
def findModel (document : Document) (name : String) : Except Failure Model :=
  match document.find? name with
  | some model => .ok model
  | none => .error (.modelNotFound name document.modelNames)

namespace Generator

/-- The generator with some settings. -/
def ofSettings (settings : Settings) : Except Failure Generator :=
  match h : settings.options with
  | .ok options => .ok ⟨settings, options, h⟩
  | .error setting => .error (.settings (.invalid setting))

/-- The plan for a model. -/
def plan (generator : Generator) (model : Model) : Plan :=
  Plan.ofModel generator.settings.modulesRoot generator.options model

section

variable {m : Type → Type} [Monad m]

/-- The schema that the settings name. -/
def loadSchema [Readable m] (generator : Generator) : m (Except Failure SchemaFile) :=
  readSchema generator.settings.schema

/-- The summaries of all models, in the order of the schema. -/
def list [Readable m] (generator : Generator) : m (Except Failure (List Summary)) := do
  match ← generator.loadSchema with
  | .error failure => return .error failure
  | .ok schema => return .ok (schema.document.models.map Summary.ofModel)

/-- Reads the schema, finds the model and carries out its plan. -/
def generate [Writable m] (generator : Generator) (name : String) (mode : Mode) :
    m (Except Failure (Plan × List Written)) := do
  match ← generator.loadSchema with
  | .error failure => return .error failure
  | .ok schema =>
    match findModel schema.document name with
    | .error failure => return .error failure
    | .ok model =>
      let plan := generator.plan model
      let progress ← plan.write mode
      match progress.error with
      | some error => return .error (.write error)
      | none => return .ok (plan, progress.done)

end

end Generator

end Scaffold.Generation
