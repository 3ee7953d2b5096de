import Scaffold.Text.Blank
import Scaffold.Text.Lines
import Scaffold.Text.Word
import Scaffold.Text.Cut
import Scaffold.Text.NameForm
import Scaffold.Schema.Document
import Scaffold.Artifact.Bundle
import Scaffold.Generation.Summary
import Scaffold.Disk.Tree
import Scaffold.Settings.Reader
import Scaffold.Settings.Load
import Scaffold.Settings.Template
import Scaffold.Generation.Generator
import Scaffold.Console.Run
import Scaffold.Main
import Scaffold.Proofs.Text.Blank
import Scaffold.Proofs.Text.Lines
import Scaffold.Proofs.Text.Cut
import Scaffold.Proofs.Schema.Block
import Scaffold.Proofs.Schema.Draft
import Scaffold.Proofs.Schema.Entry
import Scaffold.Proofs.Schema.RoundTrip
import Scaffold.Proofs.Schema.Enclosure
import Scaffold.Proofs.Schema.ModelHeader
import Scaffold.Proofs.Schema.WellRead
import Scaffold.Proofs.Schema.WellFormed
import Scaffold.Proofs.Schema.AttributeOrder
import Scaffold.Proofs.Artifact.Lines
import Scaffold.Proofs.Text.NameForm
import Scaffold.Proofs.Text.Hump
import Scaffold.Proofs.Artifact.Import
import Scaffold.Proofs.Artifact.Emitted
import Scaffold.Proofs.Artifact.ClosedModule
import Scaffold.Proofs.Artifact.MethodView
import Scaffold.Proofs.Artifact.Identity
import Scaffold.Proofs.Artifact.Layers
import Scaffold.Proofs.Schema.Concatenation
import Scaffold.Proofs.Schema.Layout
import Scaffold.Proofs.Artifact.Binding
import Scaffold.Proofs.Artifact.Layout
import Scaffold.Proofs.Schema.Arguments
import Scaffold.Proofs.Schema.Mention
import Scaffold.Proofs.Schema.BodyLine
import Scaffold.Proofs.Schema.Attribution
import Scaffold.Proofs.Schema.Interleaving
import Scaffold.Proofs.Schema.NamedArguments
import Scaffold.Proofs.Schema.SegmentedLine
import Scaffold.Proofs.Artifact.Inheritance
import Scaffold.Proofs.Artifact.OptionScope
import Scaffold.Proofs.Artifact.Payload
import Scaffold.Proofs.Artifact.PlainIdentity
import Scaffold.Proofs.Artifact.Hygiene
import Scaffold.Proofs.Artifact.Repetition
import Scaffold.Proofs.Settings.Options
import Scaffold.Proofs.Disk.Approach
import Scaffold.Proofs.Generation.Effect
import Scaffold.Proofs.Generation.Independence
import Scaffold.Proofs.Generation.Preview
import Scaffold.Proofs.Generation.Listing
import Scaffold.Proofs.Generation.Confinement
import Scaffold.Proofs.Console.Run
import Scaffold.Proofs.Console.Reporting
import Scaffold.Proofs.Console.NextSteps
