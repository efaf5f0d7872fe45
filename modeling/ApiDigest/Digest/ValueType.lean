/-
  Value types: what a schema node says about a value, without formats and
  precision.

  * `ValueType` is one base type, or a union of base types in order;
  * `Schema.valueType` classifies a node.  Its variants count when there are at
    least two; sentinels are left out, equal types fall together, a value beside
    one array is an array, and everything else is a union.
-/
import ApiDigest.Document.Schema

namespace ApiDigest

/-! ## Types -/

/-- A type of values on its own. -/
inductive BaseType where
  | string
  | number
  | boolean
  | object
  | array
  | unknown
deriving DecidableEq, Repr, Inhabited

/-- The name of a base type. -/
def BaseType.name : BaseType → String
  | string => "string"
  | number => "number"
  | boolean => "boolean"
  | object => "object"
  | array => "array"
  | unknown => "unknown"

/-- The base types. -/
def BaseType.all : List BaseType := [.string, .number, .boolean, .object, .array, .unknown]

/-- The type of a value: a base type, or a union of base types in order. -/
inductive ValueType where
  | base (type : BaseType)
  | union (members : List BaseType)
deriving DecidableEq, Repr, Inhabited

namespace ValueType

/-- The base types that a type is made of. -/
def members : ValueType → List BaseType
  | base t => [t]
  | union ts => ts

/-- The union of several types, without nesting. -/
def join (types : List ValueType) : ValueType := union (types.flatMap members)

/-- Whether the type is that of arrays. -/
def isArray (type : ValueType) : Bool := type = base .array

/-- The text of a type: the names of its members with bars between them. -/
def render (type : ValueType) : String :=
  String.intercalate " | " (type.members.map BaseType.name)

/-- Several types as one, if they are all equal. -/
def common? : List ValueType → Option ValueType
  | [] => none
  | t :: rest => if rest.all (· = t) then some t else none

/-- The type of a value that may be of any of the given types: unknown if there is
    none, the common type if there is one, else their union. -/
def either : List ValueType → ValueType
  | [] => base .unknown
  | types => (common? types).getD (join types)

/-- Like `either`, but a value of one type or an array counts as an array. -/
def eitherOrList (types : List ValueType) : ValueType :=
  match common? types with
  | some t => t
  | none => if types.length = 2 && types.countP isArray = 1 then base .array else either types

end ValueType

/-! ## Classification of schema nodes -/

namespace Schema

/-- The type of a node without a known declared type. -/
def untyped (schema : Schema) : ValueType :=
  .base (if schema.hasProperties then .object else .unknown)

/-- The type that a declared name stands for. -/
def namedType (schema : Schema) (name : String) : ValueType :=
  if name = "integer" || name = "number" then .base .number
  else if name = "boolean" then .base .boolean
  else if name = "string" then .base .string
  else if name = "array" then .base .array
  else if name = "object" then .base .object
  else schema.untyped

/-- The type of a node by its declared types alone, null left out of a list. -/
def declaredType (schema : Schema) : ValueType :=
  match schema.declared with
  | some (.single name) => schema.namedType name
  | some (.several names) =>
    match names.filter (· ≠ "null") with
    | [] => schema.untyped
    | real => .either (real.map schema.namedType)
  | none => schema.untyped

mutual

/-- The type of the values that a node describes. -/
def valueType : Schema → ValueType
  | schema@⟨_, _, _, _, _, _, _, variants, _, _⟩ =>
    let real := realTypes variants
    if variants.length < 2 then schema.declaredType else .eitherOrList real

/-- The types of the variants that are no sentinels. -/
def realTypes : List Schema → List ValueType
  | [] => []
  | variant :: rest =>
    if variant.isNullSentinel then realTypes rest else valueType variant :: realTypes rest

end

end Schema
end ApiDigest
