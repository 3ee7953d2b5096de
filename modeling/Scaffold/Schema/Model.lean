import Scaffold.Schema.Field

/-!
Models: the entities of a schema. A model that records its creation, its updates and its
deletion is rich, and its generated code extends shared base classes; any other is basic.
-/

namespace Scaffold.Schema

/-- An identity of several fields, with the key that lookups name it by, if one is declared. -/
structure CompositeId where
  fields : List String
  key : Option String
  fields_ne_nil : fields ≠ []
deriving DecidableEq, Repr

/-- The composite identity of the given fields. No fields make no identity. -/
def CompositeId.ofFields? (fields : List String) (key : Option String) : Option CompositeId :=
  if h : fields ≠ [] then some ⟨fields, key, h⟩ else none

/-- How the entities of a model are told apart. -/
inductive Identity where
  /-- By one numeric `id`. -/
  | single
  /-- By several fields together. -/
  | composite (fields : List String) (key : Option String)
deriving DecidableEq, Repr

/-- Whether generated code extends the shared base classes. -/
inductive Capability where
  /-- Timestamps and soft deletion: the base classes do the work. -/
  | rich
  /-- Written out: no base class. -/
  | basic
deriving DecidableEq, Repr

/-- The short label of a capability. -/
def Capability.label : Capability → String
  | .rich => "rich"
  | .basic => "basic"

/-- What a capability means for the generated code. -/
def Capability.description : Capability → String
  | .rich => "with base classes"
  | .basic => "basic CRUD"

/-- An entity of the schema. -/
structure Model where
  name : String
  fields : List Field
  compositeId : Option CompositeId
deriving DecidableEq, Repr

namespace Model

/-- Whether the model declares a field of the given name. -/
def declares (model : Model) (name : String) : Bool :=
  model.fields.any fun field => field.name == name

/-- Whether the model records creation and updates. -/
def hasTimestamps (model : Model) : Bool :=
  model.declares createdAt && model.declares updatedAt

/-- Whether the model records deletion. -/
def hasSoftDelete (model : Model) : Bool :=
  model.declares deletedAt

/-- The capability that the fields of the model give it. -/
def capability (model : Model) : Capability :=
  if model.hasTimestamps && model.hasSoftDelete then .rich else .basic

/-- The identity of the model's entities. -/
def identity (model : Model) : Identity :=
  match model.compositeId with
  | some composite => .composite composite.fields composite.key
  | none => .single

/-- The fields of the composite identity; none without one. -/
def compositeFields (model : Model) : List String :=
  match model.compositeId with
  | some composite => composite.fields
  | none => []

/-- Whether the model answers to a name. ASCII case does not matter. -/
def isNamed (model : Model) (name : String) : Bool :=
  model.name.toList.map Char.toLower == name.toList.map Char.toLower

/-- A model is rich exactly when it declares all three lifecycle markers. -/
theorem capability_eq_rich_iff {model : Model} :
    model.capability = .rich ↔ ∀ marker ∈ lifecycleMarkers, model.declares marker = true := by
  by_cases h : (model.hasTimestamps && model.hasSoftDelete) = true
  · simp_all [capability, hasTimestamps, hasSoftDelete, lifecycleMarkers]
  · simp_all [capability, hasTimestamps, hasSoftDelete, lifecycleMarkers]

end Model

end Scaffold.Schema
