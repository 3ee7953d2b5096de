/-!
What generated code depends on besides the model: indentation, file extension, the paths that it
imports from, and the fields that are optional whatever the schema says.
-/

namespace Scaffold.Artifact

/-- The indentation of one level. -/
inductive Indent where
  | twoSpaces
  | fourSpaces
  | tab
deriving DecidableEq, Repr

/-- The text of one level. -/
def Indent.unit : Indent → String
  | .twoSpaces => "  "
  | .fourSpaces => "    "
  | .tab => "\t"

/-- The text of several levels. -/
def Indent.levels (indent : Indent) : Nat → String
  | 0 => ""
  | depth + 1 => indent.unit ++ indent.levels depth

/-- The paths that generated code imports shared code from. -/
structure ImportPaths where
  baseRepository : String := "../../common/repositories/base.repository"
  baseService : String := "../../common/services/base.service"
  baseController : String := "../../common/controllers/base.controller"
  databaseService : String := "../../database/database.service"
  prismaClient : String := "@prisma/client"
  decimal : String := "@prisma/client/runtime/library"
deriving DecidableEq, Repr

/-- The fields that are optional unless the settings say otherwise. -/
def customaryOptional : List String :=
  ["sku", "description", "shortDescription", "compareAtPrice", "brandId", "isActive", "isFeatured",
    "stockQuantity", "lowStockThreshold", "metaTitle", "metaDescription"]

/-- Which fields are optional although the schema requires them. -/
structure Optionality where
  /-- Names of fields of every model. -/
  everywhere : List String
  /-- Pairs of a model, by its exact name, and the name of one of its fields. -/
  inModel : List (String × String)
deriving DecidableEq, Repr

namespace Optionality

/-- Forces nothing. -/
def none : Optionality := ⟨[], []⟩

/-- Forces the customary fields. -/
def customary : Optionality := ⟨customaryOptional, []⟩

/-- Forces further fields of every model. -/
def addEverywhere (optionality : Optionality) (fields : List String) : Optionality :=
  { optionality with everywhere := optionality.everywhere ++ fields }

/-- Forces one more field of one model. -/
def addInModel (optionality : Optionality) (model field : String) : Optionality :=
  { optionality with inModel := optionality.inModel ++ [(model, field)] }

/-- Forces the fields of a list in one model, one after the other. -/
def addAllInModel (optionality : Optionality) (model : String) (fields : List String) :
    Optionality :=
  fields.foldl (fun gathered field => gathered.addInModel model field) optionality

/-- Forces the fields of one list after the other, each in the model that the list is for. -/
def addLists (optionality : Optionality) (lists : List (String × List String)) : Optionality :=
  lists.foldl (fun gathered entry => gathered.addAllInModel entry.1 entry.2) optionality

/-- Whether a field of a model is forced optional. -/
def forces (optionality : Optionality) (model field : String) : Bool :=
  optionality.everywhere.contains field || optionality.inModel.contains (model, field)

@[simp] theorem forces_none (model field : String) : none.forces model field = false := rfl

/-- Fields of every model are added to what is forced, and take nothing away. -/
theorem forces_addEverywhere (optionality : Optionality) (fields : List String)
    (model field : String) :
    (optionality.addEverywhere fields).forces model field =
      (optionality.forces model field || fields.contains field) := by
  rw [Bool.eq_iff_iff]
  simp only [forces, addEverywhere, List.contains_eq_mem, Bool.or_eq_true, decide_eq_true_eq,
    List.mem_append]
  grind

/-- A field of one model is added for a model of exactly that name. -/
theorem forces_addInModel (optionality : Optionality) (named added model field : String) :
    (optionality.addInModel named added).forces model field =
      (optionality.forces model field || (model == named && field == added)) := by
  rw [Bool.eq_iff_iff]
  simp only [forces, addInModel, List.contains_eq_mem, Bool.or_eq_true, decide_eq_true_eq,
    List.mem_append, List.mem_singleton, Prod.mk.injEq, Bool.and_eq_true, beq_iff_eq, or_assoc]

end Optionality

/-- The options of code generation. -/
structure Options where
  optionality : Optionality := .customary
  imports : ImportPaths := {}
  indent : Indent := .twoSpaces
  /-- The extension of generated files, without the dot before it. -/
  extension : String := "ts"
deriving DecidableEq, Repr

end Scaffold.Artifact
