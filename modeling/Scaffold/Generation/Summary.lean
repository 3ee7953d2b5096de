import Scaffold.Artifact.Symbols
import Scaffold.Schema.Model

/-!
Summaries: what the listing of a schema says about one model.
-/

namespace Scaffold.Generation

open Schema (Model Capability)

/-- The entry of one model in a listing. -/
structure Summary where
  name : String
  /-- The directory of the model's module, inside the root of all modules. -/
  moduleName : String
  capability : Capability
  hasTimestamps : Bool
  hasSoftDelete : Bool
  compositeFields : List String
deriving DecidableEq, Repr

/-- The summary of a model. -/
def Summary.ofModel (model : Model) : Summary where
  name := model.name
  moduleName := (Artifact.Symbols.ofName model.name).stem
  capability := model.capability
  hasTimestamps := model.hasTimestamps
  hasSoftDelete := model.hasSoftDelete
  compositeFields := model.compositeFields

end Scaffold.Generation
