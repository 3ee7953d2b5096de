import Scaffold.Artifact.Bundle
import Scaffold.Proofs.Schema.Layout

/-!
The layout of a schema does not show in the code that is generated from it. Emitters read names,
types and attributes of fields and never the line of one (`bundle_renumber`), so schemas that differ
in their layout alone give the same files (`bundle_of_codeLines`).
-/

namespace Scaffold.Artifact

open Schema (Model Document codeLines unnumbered)

section Renumber

variable (label : Nat → Nat)

theorem declares_renumber (model : Model) (name : String) :
    (model.renumber label).declares name = model.declares name :=
  List.any_map

/-- The markers that make a model rich are names of fields. -/
theorem capability_renumber (model : Model) :
    (model.renumber label).capability = model.capability := by
  unfold Model.capability Model.hasTimestamps Model.hasSoftDelete
  rw [declares_renumber, declares_renumber, declares_renumber]

/-- Fields stay in the payload or out of it with their new lines. -/
theorem payload_renumber (model : Model) :
    payload (model.renumber label) = (payload model).map (Schema.Field.renumber label) :=
  List.filter_map

theorem searchFields_renumber (model : Model) :
    searchFields (model.renumber label) = searchFields model := by
  rw [searchFields, searchFields, Model.renumber, List.filter_map, List.map_map]
  rfl

/-- Imports depend on which validators are used, and those on the types of the fields. -/
theorem createDtoImports_renumber (options : Options) (model : Model) :
    createDtoImports options (model.renumber label) = createDtoImports options model := by
  have hvalidators : usedValidators ((payload model).map (Schema.Field.renumber label)) =
      usedValidators (payload model) := by
    unfold usedValidators
    rw [List.filterMap_map]
    rfl
  unfold createDtoImports
  simp only [payload_renumber, hvalidators, List.any_map]
  rfl

theorem createDto_renumber (options : Options) (model : Model) :
    createDto options (model.renumber label) = createDto options model := by
  unfold createDto
  rw [createDtoImports_renumber, payload_renumber, List.map_map]
  rfl

/-- A repository depends on the lines least of all: its search has a list of names. -/
theorem repository_renumber (options : Options) (model : Model) :
    repository options (model.renumber label) = repository options model := by
  unfold repository repositoryImports richRepositoryMembers
  rw [capability_renumber, searchFields_renumber]
  rfl

theorem service_renumber (options : Options) (model : Model) :
    service options (model.renumber label) = service options model := by
  unfold service serviceImports
  rw [capability_renumber]
  rfl

theorem controller_renumber (options : Options) (model : Model) :
    controller options (model.renumber label) = controller options model := by
  unfold controller controllerImports
  rw [capability_renumber]
  rfl

/-- No kind of file shows the line of a field. -/
theorem classFile_renumber (options : Options) (model : Model) (kind : Kind) :
    classFile options (model.renumber label) kind = classFile options model kind := by
  cases kind with
  | createDto => exact createDto_renumber label options model
  | updateDto => rfl
  | repository => exact repository_renumber label options model
  | service => exact service_renumber label options model
  | controller => exact controller_renumber label options model
  | wiring => rfl

/-- The lines that the fields of a model stand on do not reach its files. -/
theorem bundle_renumber (options : Options) (model : Model) :
    bundle options (model.renumber label) = bundle options model := by
  refine bundle_congr fun kind => ?_
  unfold file
  rw [classFile_renumber]
  rfl

end Renumber

/-- Sources of the same code generate the same files. -/
theorem bundle_of_codeLines {first second : String}
    (h : codeLines first.toList = codeLines second.toList) (options : Options) :
    (Document.ofSource first).models.map (bundle options) =
      (Document.ofSource second).models.map (bundle options) := by
  have hbundle : bundle options ∘ Model.renumber unnumbered = bundle options :=
    funext (bundle_renumber unnumbered options)
  have hmodels := congrArg (List.map (bundle options)) (Schema.models_of_codeLines h)
  rwa [List.map_map, List.map_map, hbundle] at hmodels

/-- Sources that are the same up to indentation, line ends, blank lines and whole-line comments have
the same models and the same diagnostics, line numbers aside, and generate the same files. -/
theorem layout_irrelevant {first second : String}
    (h : codeLines first.toList = codeLines second.toList) :
    (Document.ofSource first).models.map (Model.renumber unnumbered) =
        (Document.ofSource second).models.map (Model.renumber unnumbered) ∧
      (Document.ofSource first).diagnostics.map (Schema.Diagnostic.renumber unnumbered) =
        (Document.ofSource second).diagnostics.map (Schema.Diagnostic.renumber unnumbered) ∧
      ∀ options : Options,
        (Document.ofSource first).models.map (bundle options) =
          (Document.ofSource second).models.map (bundle options) :=
  ⟨Schema.models_of_codeLines h, Schema.diagnostics_of_codeLines h, bundle_of_codeLines h⟩

/-- A schema on as few lines as it needs. -/
def denseSchema : String :=
  "model Post \x7b\nid Int @id\n\x7d\nstray\n"

/-- The same schema with indentation, comments, blank lines and other line ends. -/
def airySchema : String :=
  "// posts\n\nmodel Post \x7b\r\n\t// the key \x7d\n\n  id Int @id  \r\n  \x7d\n  // end\nstray"

theorem layout_irrelevant_post :
    codeLines denseSchema.toList = codeLines airySchema.toList ∧
      (Document.ofSource denseSchema).models.map (Model.renumber unnumbered) =
        (Document.ofSource airySchema).models.map (Model.renumber unnumbered) ∧
      (Document.ofSource airySchema).diagnostics.map (Schema.Diagnostic.renumber unnumbered) =
        [⟨0, .strayLine, "stray"⟩] ∧
      (Document.ofSource denseSchema).models.map (bundle {}) =
        (Document.ofSource airySchema).models.map (bundle {}) := by
  have hcode : codeLines denseSchema.toList = codeLines airySchema.toList := by decide
  obtain ⟨hmodels, hdiagnostics, hfiles⟩ := layout_irrelevant hcode
  refine ⟨hcode, hmodels, ?_, hfiles {}⟩
  rw [← hdiagnostics]
  decide

end Scaffold.Artifact
