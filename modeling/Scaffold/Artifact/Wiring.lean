import Scaffold.Artifact.ClassFile
import Scaffold.Artifact.Symbols
import Scaffold.Schema.Model

/-!
The module class: it declares the controller, provides service and repository, and exports the
service.
-/

namespace Scaffold.Artifact

/-- The module class of a model. -/
def wiring (model : Schema.Model) : ClassFile :=
  let symbols := Symbols.ofName model.name
  { imports :=
      [⟨["Module"], "@nestjs/common"⟩,
        ⟨[symbols.controller], symbols.sibling "controller"⟩,
        ⟨[symbols.service], symbols.sibling "service"⟩,
        ⟨[symbols.repository], symbols.sibling "repository"⟩]
    decorators :=
      [.table "Module"
        [("controllers", [symbols.controller]),
          ("providers", [symbols.service, symbols.repository]),
          ("exports", [symbols.service])]]
    name := symbols.wiring }

end Scaffold.Artifact
