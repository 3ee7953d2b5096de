import Scaffold.Schema.Scalar

/-!
The fields of a model.
-/

namespace Scaffold.Schema

/-- A declared attribute of a model. -/
structure Field where
  name : String
  /-- The type name without its markers. -/
  type : String
  isOptional : Bool
  isId : Bool
  isUnique : Bool
  hasDefault : Bool
  isArray : Bool
  /-- The model that the field refers to, if it is a relation. -/
  relation : Option String
  /-- The source line of the declaration, counted from one. -/
  line : Nat
deriving DecidableEq, Repr

namespace Field

/-- Whether the field refers to another model. -/
def isRelation (field : Field) : Bool :=
  field.relation.isSome

/-- The built-in scalar that the field holds, if any. -/
def scalar? (field : Field) : Option Scalar :=
  Scalar.ofName? field.type

/-- The type of one element of the field in generated code. -/
def generatedType (field : Field) : String :=
  generatedTypeOf field.type

/-- The decorator that validates one element of the field. -/
def validator? (field : Field) : Option Validator :=
  field.scalar?.bind Scalar.validator?

end Field

/-- The field that holds the time of creation. -/
def createdAt : String := "createdAt"

/-- The field that holds the time of the last update. -/
def updatedAt : String := "updatedAt"

/-- The field that holds the time of deletion. -/
def deletedAt : String := "deletedAt"

/-- The names of fields that record the life of an entity. -/
def lifecycleMarkers : List String := [createdAt, updatedAt, deletedAt]

/-- Whether the field records the life of its entity. -/
def Field.isLifecycleMarker (field : Field) : Bool :=
  lifecycleMarkers.contains field.name

end Scaffold.Schema
