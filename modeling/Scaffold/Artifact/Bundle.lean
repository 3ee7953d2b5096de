import Scaffold.Artifact.Controller
import Scaffold.Artifact.Dto
import Scaffold.Artifact.Repository
import Scaffold.Artifact.Wiring

/-!
The bundle of files that make up the module of a model. Files are produced in stages, one for
each concern; the bundle is what all stages produce, in order. That is one file of each kind
(`bundle_eq`, `filter_kind_bundle`).
-/

namespace Scaffold.Artifact

open Schema (Model)

/-- A generated file. -/
structure File where
  kind : Kind
  /-- The path, relative to the module's directory. -/
  path : String
  content : String
deriving DecidableEq, Repr

/-- The class that a file of a given kind exports. -/
def classFile (options : Options) (model : Model) : Kind → ClassFile
  | .createDto => createDto options model
  | .updateDto => updateDto model
  | .repository => repository options model
  | .service => service options model
  | .controller => controller options model
  | .wiring => wiring model

/-- The file of a given kind. -/
def file (options : Options) (model : Model) (kind : Kind) : File where
  kind
  path := kind.path (Symbols.ofName model.name).stem options.extension
  content := (classFile options model kind).render options.indent

/-- The stages of generation. -/
inductive Stage where
  | dto
  | repository
  | service
  | controller
  | wiring
deriving DecidableEq, Repr

/-- All stages, in order. -/
def Stage.all : List Stage := [.dto, .repository, .service, .controller, .wiring]

/-- The name of a stage. -/
def Stage.name : Stage → String
  | .dto => "dto"
  | .repository => "repository"
  | .service => "service"
  | .controller => "controller"
  | .wiring => "module"

/-- The kinds of files that a stage produces. -/
def Stage.kinds : Stage → List Kind
  | .dto => [.createDto, .updateDto]
  | .repository => [.repository]
  | .service => [.service]
  | .controller => [.controller]
  | .wiring => [.wiring]

/-- The files that a stage produces. -/
def Stage.files (stage : Stage) (options : Options) (model : Model) : List File :=
  stage.kinds.map (file options model)

/-- All files of a model's module: what the stages produce, one after the other. -/
def bundle (options : Options) (model : Model) : List File :=
  Stage.all.flatMap fun stage => stage.files options model

/-- The stages go through the kinds in their order and leave none out. -/
theorem bundle_eq (options : Options) (model : Model) :
    bundle options model = Kind.all.map (file options model) :=
  rfl

theorem mem_bundle_iff {options : Options} {model : Model} {made : File} :
    made ∈ bundle options model ↔ ∃ kind, file options model kind = made := by
  simp [bundle_eq, Kind.mem_all]

/-- Bundles are the same when the files of each kind are. -/
theorem bundle_congr {first second : Options} {model other : Model}
    (h : ∀ kind, file first model kind = file second other kind) :
    bundle first model = bundle second other := by
  rw [bundle_eq, bundle_eq]
  exact List.map_congr_left fun kind _ => h kind

/-- Among all files exactly one is of a given kind. -/
theorem filter_kind_bundle (options : Options) (model : Model) (kind : Kind) :
    (bundle options model).filter (fun made => made.kind = kind) = [file options model kind] := by
  cases kind <;> rfl

/-- The class of a file is the one that the symbols name. -/
theorem classFile_name (options : Options) (model : Model) (kind : Kind) :
    (classFile options model kind).name = (Symbols.ofName model.name).className kind := by
  cases kind <;> rfl

end Scaffold.Artifact
