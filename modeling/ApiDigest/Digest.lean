/-
  Digests: the flat records that generators read.

  A digest has one record per operation and one per named schema.  Records refer
  to schemas by name only, never by nesting.

  * `ShapeRef` is what an operation says about a body: a type, a named schema, or
    an array of either;
  * `Digest.schema?` and `Digest.operation?` find records by name.
-/
import ApiDigest.Digest.ValueType
import ApiDigest.Method

namespace ApiDigest

/-! ## Records -/

/-- The places of parameters that a digest covers. -/
inductive ParamPlace where
  | path
  | query
deriving DecidableEq, Repr

/-- The word for a place. -/
def ParamPlace.name : ParamPlace → String
  | path => "path"
  | query => "query"

/-- The place that a word stands for; headers and cookies have none. -/
def ParamPlace.ofName? (name : String) : Option ParamPlace :=
  if name = "path" then some .path else if name = "query" then some .query else none

/-- A parameter in the path or the query. -/
structure ParamRecord where
  name : String
  type : ValueType
  required : Bool
  place : ParamPlace
deriving DecidableEq

/-- The shape of a body. -/
inductive ShapeRef where
  /-- No named schema. -/
  | primitive (type : ValueType)
  /-- A schema of the table, or one made for the body. -/
  | named (name : String)
  /-- An array, with the name or else the type of its elements, when known. -/
  | array (itemRef : Option String) (itemType : Option ValueType)
deriving DecidableEq

/-- An operation. -/
structure OperationRecord where
  id : String
  method : Method
  path : String
  pathParams : List ParamRecord
  queryParams : List ParamRecord
  body : Option ShapeRef
  response : Option ShapeRef
  tags : List String
deriving DecidableEq

/-- A property of a schema. -/
structure PropertyRecord where
  name : String
  type : ValueType
  required : Bool
  isArray : Bool
  /-- The type of the elements, when they are no named schema. -/
  itemType : Option ValueType
  /-- The name of the schema of the elements. -/
  itemRef : Option String
  /-- The name of the schema that the property points at. -/
  ref : Option String
  literals : Option (List Literal)
deriving DecidableEq

/-- A named schema. -/
structure SchemaRecord where
  name : String
  properties : List PropertyRecord
  required : List String
deriving DecidableEq

/-- A digest. -/
structure Digest where
  operations : List OperationRecord
  schemas : List SchemaRecord
deriving DecidableEq

/-! ## Finding records -/

/-- The first property with a name. -/
def SchemaRecord.property? (schema : SchemaRecord) (name : String) : Option PropertyRecord :=
  schema.properties.find? fun property => property.name = name

/-- The first schema with a name. -/
def Digest.schema? (digest : Digest) (name : String) : Option SchemaRecord :=
  digest.schemas.find? fun schema => schema.name = name

/-- The first operation with an identifier. -/
def Digest.operation? (digest : Digest) (id : String) : Option OperationRecord :=
  digest.operations.find? fun operation => operation.id = id

namespace ShapeRef

/-! ## Views of a shape -/

/-- The word for the kind of a shape. -/
def kind : ShapeRef → String
  | primitive _ => "primitive"
  | named _ => "named"
  | array _ _ => "array"

/-- The type of a shape as a whole. -/
def type : ShapeRef → ValueType
  | primitive t => t
  | named _ => .base .object
  | array _ _ => .base .array

/-- The name of a named shape. -/
def name? : ShapeRef → Option String
  | named name => some name
  | _ => none

/-- Whether the shape is an array. -/
def isArray : ShapeRef → Bool
  | array _ _ => true
  | _ => false

/-- The name of the schema of the elements. -/
def itemRef : ShapeRef → Option String
  | array ref _ => ref
  | _ => none

/-- The type of the elements, when they are no named schema. -/
def itemType : ShapeRef → Option ValueType
  | array _ type => type
  | _ => none

end ShapeRef
end ApiDigest
