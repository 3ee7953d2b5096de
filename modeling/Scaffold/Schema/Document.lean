import Scaffold.Schema.Block
import Scaffold.Schema.BlockAttribute
import Scaffold.Schema.Declaration

/-!
Schema documents: the models that a source declares, and its diagnostics. Every line of a model
block is one `Entry`; the fields of the model are the field entries in order, its identity is
that of the first entry that describes one, and what is left over is reported.
-/

namespace Scaffold.Schema

open Text

/-- What a line in the body of a model is. -/
inductive Entry where
  | comment
  | declared (field : Field)
  /-- A composite identity, if its arguments list a field. -/
  | identity (id? : Option CompositeId)
  /-- Any other block attribute. -/
  | attribute
  | unrecognized
deriving DecidableEq, Repr

/-- The entry on a body line. -/
def Entry.ofLine (line : SourceLine) : Entry :=
  if isComment line.text then .comment
  else if isBlockAttribute line.text then
    match identityArguments? line.text with
    | some arguments => .identity (CompositeId.ofArguments? arguments)
    | none => .attribute
  else
    match Field.ofLine? line.text line.number with
    | some field => .declared field
    | none => .unrecognized

/-- The field of an entry. -/
def Entry.field? : Entry → Option Field
  | .declared field => some field
  | _ => none

/-- The composite identity of an entry. -/
def Entry.compositeId? : Entry → Option CompositeId
  | .identity id? => id?
  | _ => none

/-- The problem with an entry of a model, given whether the model has its identity already. -/
def Entry.problem? (model : String) (identified : Bool) : Entry → Option Problem
  | .identity id? =>
    if identified then some (.duplicateIdentity model)
    else if id?.isNone then some .identityWithoutFields
    else none
  | .unrecognized => some (.unrecognized model)
  | _ => none

/-- The model that a block declares. -/
def Block.model (block : Block) : Model :=
  let entries := block.body.map Entry.ofLine
  { name := block.name
    fields := entries.filterMap Entry.field?
    compositeId := entries.findSome? Entry.compositeId? }

/-- The problems of the body lines of a model, given whether it has its identity already. -/
def bodyDiagnostics (model : String) (identified : Bool) : List SourceLine → List Diagnostic
  | [] => []
  | line :: rest =>
    let entry := Entry.ofLine line
    let here := (entry.problem? model identified).map fun problem =>
      Diagnostic.mk line.number problem (String.ofList line.text)
    here.toList ++ bodyDiagnostics model (identified || entry.compositeId?.isSome) rest

/-- The problems in the body of a block that declares a model. -/
def Block.diagnostics (block : Block) : List Diagnostic :=
  bodyDiagnostics block.name false block.body

/-- A schema as it is read. -/
structure Document where
  /-- The models, in the order of the source. -/
  models : List Model
  /-- The problems of the block structure, and then those of each model. -/
  diagnostics : List Diagnostic
deriving DecidableEq, Repr

namespace Document

/-- The document that some blocks and structural problems make. -/
def ofScan (scan : Scan) : Document :=
  let declared := scan.blocks.filter Block.isModel
  { models := declared.map Block.model
    diagnostics := scan.diagnostics ++ declared.flatMap Block.diagnostics }

/-- The document of a source. -/
def ofSource (source : String) : Document :=
  ofScan (Scan.ofSource source.toList)

/-- The first model that answers to a name. -/
def find? (document : Document) (name : String) : Option Model :=
  document.models.find? fun model => model.isNamed name

/-- The names of the models. -/
def modelNames (document : Document) : List String :=
  document.models.map Model.name

end Document

end Scaffold.Schema
