/-
  Records of schemas.

  Pointers into the schema table are recorded by name and never followed, so
  schemas that refer to each other stay flat.  Pointers to sibling properties are
  replaced by the sibling's node, one level deep, before classification.

  * `Schema.propertyRecords` are the records of a node's properties;
  * `Schema.shapeRef` is the shape of a body that has no properties of its own.
-/
import ApiDigest.Digest

namespace ApiDigest.Schema

/-! ## Elements of arrays -/

/-- The name of the schema of the elements, if their node points at one. -/
def elementRef (items : Option Schema) : Option String := items.bind tableName?

/-- The type of the elements, if their node points at no schema. -/
def elementType (items : Option Schema) : Option ValueType :=
  items.bind fun node => if node.tableName?.isSome then none else some node.valueType

/-- Whether a node counts as an array. -/
def isArrayNode (node : Schema) : Bool := node.declares "array" || node.valueType.isArray

/-! ## Properties -/

/-- The sibling's node for a node that points at an existing sibling; any other
    node itself. -/
def resolveSibling (siblings : List (String × Schema)) (node : Schema) : Schema :=
  (node.siblingName?.bind fun name => Fields.get? name siblings).getD node

/-- The record of a property among its siblings. -/
def propertyRecord (siblings : List (String × Schema)) (required : List String)
    (name : String) (node : Schema) : PropertyRecord :=
  let resolved := resolveSibling siblings node
  let isArray := resolved.isArrayNode
  let items := if isArray then resolved.arrayItems.map (resolveSibling siblings) else none
  let target := resolved.unwrapNullable
  { name
    type := resolved.valueType
    required := required.contains name
    isArray
    itemType := elementType items
    itemRef := elementRef items
    ref := target.tableName?
    literals := target.literals }

/-- The records of a node's properties, in order of declaration. -/
def propertyRecords (schema : Schema) : List PropertyRecord :=
  schema.properties.map fun (name, node) =>
    propertyRecord schema.properties schema.required name node

/-- The record of a node under a name. -/
def record (name : String) (schema : Schema) : SchemaRecord :=
  ⟨name, schema.propertyRecords, schema.required⟩

/-! ## Bodies -/

/-- The shape that a node describes, wrappers for null aside: a pointer gives the
    name, an array its elements, anything else its type. -/
def shapeRef (schema : Schema) : ShapeRef :=
  let node := schema.unwrapNullable
  match node.tableName? with
  | some name => .named name
  | none =>
    if node.isArrayNode then .array (elementRef node.arrayItems) (elementType node.arrayItems)
    else .primitive node.valueType

end ApiDigest.Schema
