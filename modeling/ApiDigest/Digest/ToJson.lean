/-
  Digests as JSON.

  Every field of a record is written, absent ones as `null`, and types are written
  as their text.
-/
import ApiDigest.Digest

namespace ApiDigest

/-- A type as JSON. -/
def ValueType.toJson (type : ValueType) : Json := .str type.render

/-- A literal as JSON. -/
def Literal.toJson : Literal → Json
  | string value => .str value
  | integer value => .num (.int value)
  | double value => .num (.double value)
  | bool value => .bool value
  | null => .null

/-- A parameter as JSON. -/
def ParamRecord.toJson (record : ParamRecord) : Json :=
  .obj [
    ("name", .str record.name),
    ("type", record.type.toJson),
    ("required", .bool record.required),
    ("location", .str record.place.name)]

/-- A shape as JSON, flat, whatever its kind. -/
def ShapeRef.toJson (ref : ShapeRef) : Json :=
  .obj [
    ("kind", .str ref.kind),
    ("type", ref.type.toJson),
    ("ref", .ofOption .str ref.name?),
    ("isArray", .bool ref.isArray),
    ("itemRef", .ofOption .str ref.itemRef),
    ("itemType", .ofOption ValueType.toJson ref.itemType)]

/-- An operation as JSON. -/
def OperationRecord.toJson (record : OperationRecord) : Json :=
  .obj [
    ("operationId", .str record.id),
    ("method", .str record.method.key),
    ("path", .str record.path),
    ("pathParams", .arr (record.pathParams.map ParamRecord.toJson)),
    ("queryParams", .arr (record.queryParams.map ParamRecord.toJson)),
    ("requestBody", .ofOption ShapeRef.toJson record.body),
    ("responseSchema", .ofOption ShapeRef.toJson record.response),
    ("tags", .ofStrings record.tags)]

/-- A property as JSON. -/
def PropertyRecord.toJson (record : PropertyRecord) : Json :=
  .obj [
    ("name", .str record.name),
    ("type", record.type.toJson),
    ("required", .bool record.required),
    ("isArray", .bool record.isArray),
    ("itemType", .ofOption ValueType.toJson record.itemType),
    ("itemRef", .ofOption .str record.itemRef),
    ("ref", .ofOption .str record.ref),
    ("enumValues", .ofOption (fun literals => .arr (literals.map Literal.toJson)) record.literals)]

/-- A schema as JSON. -/
def SchemaRecord.toJson (record : SchemaRecord) : Json :=
  .obj [
    ("name", .str record.name),
    ("properties", .arr (record.properties.map PropertyRecord.toJson)),
    ("required", .ofStrings record.required)]

/-- A digest as JSON. -/
def Digest.toJson (digest : Digest) : Json :=
  .obj [
    ("operations", .arr (digest.operations.map OperationRecord.toJson)),
    ("schemas", .arr (digest.schemas.map SchemaRecord.toJson))]

end ApiDigest
