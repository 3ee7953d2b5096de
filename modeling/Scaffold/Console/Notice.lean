import Scaffold.Console.Help
import Scaffold.Console.Json
import Scaffold.Console.Paint
import Scaffold.Failure
import Scaffold.Generation.Write

/-!
Notices: what a run tells its user, each with the text that stands on the screen.
-/

namespace Scaffold.Console

open Generation (Plan Summary Written)
open Schema (Capability)

/-- Something that the user is told. -/
inductive Notice where
  | help
  | version
  | overview
  /-- A settings file was written. -/
  | settingsWritten (path : String)
  /-- The module of a model is about to be generated. -/
  | generating (model : String) (capability : Capability)
  /-- A file was written. -/
  | generated (path : String)
  /-- A file would be written. -/
  | preview (path content : String)
  /-- The module of a model is complete, in its directory. -/
  | complete (model directory : String)
  /-- The models of a schema. -/
  | models (schema : String) (summaries : List Summary)
  /-- The models of a schema, for other programs. -/
  | modelsAsJson (summaries : List Summary)
deriving DecidableEq, Repr

namespace Notice

/-- The notice of what became of a file. -/
def ofWritten : Written → Notice
  | .onDisk path _ => .generated path
  | .previewed path content => .preview path content

/-- The colour of a capability in a listing. -/
def capabilityStyle : Capability → Style
  | .rich => .green
  | .basic => .yellow

/-- The entry of a model in a listing. -/
def entry (summary : Summary) : List Span :=
  [plain ("   " ++ summary.name ++ " "),
    styled (capabilityStyle summary.capability) ("(" ++ summary.capability.description ++ ")"),
    plain "\n"]

/-- The line around the text of a preview. -/
def rule : List Span :=
  [styled .dimmed (String.ofList (List.replicate 60 '─')), plain "\n"]

/-- The text of a notice. -/
def spans : Notice → List Span
  | .help => [plain helpText]
  | .version => [plain (versionText ++ "\n")]
  | .overview =>
    [plain "\n", styled .bold "NestJS Module Generator", plain ("\n\n" ++ helpText ++ "\n")]
  | .settingsWritten path =>
    [styled .green "✓", plain (" Created configuration file: " ++ path ++ "\n")]
  | .generating model capability =>
    [styled .cyan "Generating module for", plain " ", styled .bold model,
      plain (" (" ++ capability.description ++ ")\n")]
  | .generated path => [styled .green "✓", plain (" Generated: " ++ path ++ "\n")]
  | .preview path content =>
    [styled .yellow "[dry-run]", plain (" Would write to " ++ path ++ ":\n")] ++ rule ++
      [plain (content ++ "\n")] ++ rule
  | .complete model directory =>
    [plain "\n", styled .boldGreen "✓",
      plain (" Module \"" ++ model ++ "\" generated successfully!\n"),
      plain "\n", styled .cyan "Files created in:", plain (" " ++ directory ++ "\n"),
      plain "\n", styled .cyan "Next steps:", plain "\n",
      plain ("   1. Add " ++ model ++ "Module to your app.module.ts\n"),
      plain "   2. Review and customize the generated files\n",
      plain "   3. Add any custom business logic to the service\n",
      plain "   4. Add authentication guards if needed\n"]
  | .models schema summaries =>
    [plain "\n", styled .cyan "Available models in", plain (" " ++ schema ++ ":\n\n")] ++
      (if summaries.isEmpty then [plain "   ", styled .yellow "No models found.", plain "\n"]
        else summaries.flatMap entry) ++
      [plain "\n", styled .cyan "Usage:", plain " nest-modgen <ModelName>\n"]
  | .modelsAsJson summaries => [plain (jsonListing summaries ++ "\n")]

end Notice

/-- The text about a failure. -/
def failureSpans (failure : Failure) : List Span :=
  [styled .boldRed "Error:", plain (" " ++ failure.message ++ "\n")]

end Scaffold.Console
