import Scaffold.Console.Arguments
import Scaffold.Console.Event
import Scaffold.Console.Notice
import Scaffold.Settings.Load
import Scaffold.Settings.Template

/-!
Runs of the program. A command is carried out on a disk, and the report of the run says what the
user is told, what is logged, and whether the run failed.
-/

namespace Scaffold.Console

open Disk (Readable Writable)
open Generation (Generator Mode Plan Progress findModel)

/-- The report of a run. -/
structure Report where
  notices : List Notice := []
  events : List Event := []
  failure : Option Failure := none
deriving DecidableEq, Repr

namespace Report

/-- The report of a run that fails with nothing to tell. -/
def failed (failure : Failure) : Report := { failure := some failure }

/-- The report with earlier events. -/
def after (events : List Event) (report : Report) : Report :=
  { report with events := events ++ report.events }

/-- The exit status of the run. -/
def status (report : Report) : Nat :=
  if report.failure.isSome then 1 else 0

/-- The text on the standard output. -/
def output (coloured : Bool) (report : Report) : String :=
  renderSpans coloured (report.notices.flatMap Notice.spans)

/-- The text about the failure, on the standard error. -/
def complaint (coloured : Bool) (report : Report) : String :=
  match report.failure with
  | some failure => renderSpans coloured (failureSpans failure)
  | none => ""

/-- The lines of the log. -/
def log (verbose : Bool) (report : Report) : List String :=
  (report.events.filter (Event.isShown verbose)).map Event.display

end Report

/-- The exit status after arguments that mean nothing. -/
def misuseStatus : Nat := 2

section

variable {m : Type → Type} [Monad m]

/-- The generator that a setup gives, and the events on the way to it. -/
def prepare [Readable m] (setup : Setup) : m (List Event × Except Failure Generator) := do
  match ← Settings.load setup.file with
  | .error error => return ([], .error (.settings error))
  | .ok loaded =>
    return (loaded.source.toList.map .settingsRead,
      Generator.ofSettings (loaded.settings.override setup.overrides))

/-- Lists the models of the schema. -/
def runList [Readable m] (generator : Generator) (asJson : Bool) : m Report := do
  match ← generator.loadSchema with
  | .error failure => return .failed failure
  | .ok schema =>
    let summaries := schema.document.models.map Generation.Summary.ofModel
    let notice := if asJson then Notice.modelsAsJson summaries else .models schema.path summaries
    return { notices := [notice], events := Event.ofSchema schema }

/-- What the user is told about the files of a plan. A failure while writing leaves it at the
failure. -/
def fileNotices (plan : Plan) (mode : Mode) (progress : Progress) : List Notice :=
  if progress.error.isSome then []
  else
    progress.done.map Notice.ofWritten ++
      (if mode = .disk then [.complete plan.model plan.directory] else [])

/-- Generates the module of one model. -/
def runGenerate [Writable m] (generator : Generator) (name : String) (mode : Mode) : m Report := do
  match ← generator.loadSchema with
  | .error failure => return .failed failure
  | .ok schema =>
    let events := Event.ofSchema schema
    match findModel schema.document name with
    | .error failure => return (Report.failed failure).after events
    | .ok model =>
      let plan := generator.plan model
      let progress ← plan.write mode
      return {
        notices := .generating model.name model.capability :: fileNotices plan mode progress
        events := events ++ Event.ofPlan plan ++ progress.done.filterMap Event.ofWritten?
        failure := progress.error.map .write }

/-- Writes a settings file. -/
def runWriteSettings [Writable m] (path : Option String) (force : Bool) : m Report := do
  let path := path.getD Settings.fileName
  if (← Readable.standing? path).isSome && !force then return .failed (.alreadyExists path)
  match ← Writable.writeText path Settings.template with
  | .error fault => return .failed (.disk fault)
  | .ok () => return { notices := [.settingsWritten path] }

/-- Carries out a command. -/
def run [Writable m] : Command → m Report
  | .help => return { notices := [.help] }
  | .version => return { notices := [.version] }
  | .overview => return { notices := [.overview] }
  | .writeSettings path force => runWriteSettings path force
  | .list setup asJson => do
    match ← prepare setup with
    | (events, .error failure) => return (Report.failed failure).after events
    | (events, .ok generator) => return (← runList generator asJson).after events
  | .generate setup model dryRun => do
    match ← prepare setup with
    | (events, .error failure) => return (Report.failed failure).after events
    | (events, .ok generator) =>
      return (← runGenerate generator model (if dryRun then .preview else .disk)).after events

end

end Scaffold.Console
