/-!
The built-in scalar types of a schema, the type that generated code gives each of them and the
decorator that validates it. Every other type name, be it a relation, an enumeration or unknown,
is typed `any` and not validated.
-/

namespace Scaffold.Schema

/-- The decorators that validate a value by its type. -/
inductive Validator where
  | isString
  | isNumber
  | isBoolean
  | isDateString
deriving DecidableEq, Repr

/-- All validators, in the order of imports. -/
def Validator.all : List Validator := [.isString, .isNumber, .isBoolean, .isDateString]

/-- The name of the decorator. -/
def Validator.decorator : Validator → String
  | .isString => "IsString"
  | .isNumber => "IsNumber"
  | .isBoolean => "IsBoolean"
  | .isDateString => "IsDateString"

theorem Validator.mem_all (validator : Validator) : validator ∈ all := by
  cases validator <;> decide

/-- The built-in scalar types. -/
inductive Scalar where
  | string
  | int
  | boolean
  | dateTime
  | decimal
  | bigInt
  | json
deriving DecidableEq, Repr

/-- All scalars. -/
def Scalar.all : List Scalar := [.string, .int, .boolean, .dateTime, .decimal, .bigInt, .json]

/-- The spelling of a scalar in a schema. -/
def Scalar.name : Scalar → String
  | .string => "String"
  | .int => "Int"
  | .boolean => "Boolean"
  | .dateTime => "DateTime"
  | .decimal => "Decimal"
  | .bigInt => "BigInt"
  | .json => "Json"

/-- The scalar of a given spelling. Case matters. -/
def Scalar.ofName? (name : String) : Option Scalar :=
  all.find? fun scalar => scalar.name == name

@[simp] theorem Scalar.ofName?_name (scalar : Scalar) : ofName? scalar.name = some scalar := by
  cases scalar <;> decide

/-- The type of a scalar in generated code. -/
def Scalar.generatedType : Scalar → String
  | .string => "string"
  | .int => "number"
  | .boolean => "boolean"
  | .dateTime => "Date"
  | .decimal => "Decimal"
  | .bigInt => "bigint"
  | .json => "any"

/-- The validator of a scalar, if it has one. -/
def Scalar.validator? : Scalar → Option Validator
  | .string => some .isString
  | .int => some .isNumber
  | .decimal => some .isNumber
  | .boolean => some .isBoolean
  | .dateTime => some .isDateString
  | .bigInt => none
  | .json => none

/-- The type that generated code gives a type name. -/
def generatedTypeOf (name : String) : String :=
  match Scalar.ofName? name with
  | some scalar => scalar.generatedType
  | none => "any"

end Scaffold.Schema
