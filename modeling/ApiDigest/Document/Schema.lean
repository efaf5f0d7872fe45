/-
  Schema nodes, reduced to the keywords that matter for a digest.

  * `Schema.tableName?` and `Schema.siblingName?` are the names that a node points
    at, in the schema table or among the properties beside it;
  * `Schema.isNullSentinel` holds of the variants that only stand for "absent";
  * `Schema.unwrapNullable` is the one real variant of a node that merely makes
    it nullable.
-/
import ApiDigest.Json
import ApiDigest.Text.Pointer

namespace ApiDigest

/-! ## Nodes -/

/-- The type that a node declares: one name, or a list of names. -/
inductive DeclaredType where
  | single (name : String)
  | several (names : List String)
deriving DecidableEq

/-- A literal that a node is restricted to. -/
inductive Literal where
  | string (value : String)
  | integer (value : Int)
  | double (value : Binary64)
  | bool (value : Bool)
  | null
deriving DecidableEq

/-- A schema node. -/
structure Schema where
  /-- The declared type. -/
  declared : Option DeclaredType
  /-- A hint on the format, which never affects the digest. -/
  format : Option String
  /-- The pointer to the node meant instead of this one. -/
  pointer : Option String
  /-- The properties of an object, in order of declaration. -/
  properties : List (String × Schema)
  /-- The names of the required properties. -/
  required : List String
  /-- The node of the elements of an array. -/
  items : Option Schema
  /-- The literals that the node is restricted to. -/
  literals : Option (List Literal)
  /-- The variants of a union. -/
  variants : List Schema
  /-- What the node excludes; only `{}` matters. -/
  negated : Option Json
  /-- Whether null is allowed besides. -/
  nullable : Option Bool
deriving Inhabited

namespace Schema

/-! ## Pointers and types -/

/-- The name of the table entry that the node points at. -/
def tableName? (schema : Schema) : Option String :=
  schema.pointer.bind (Pointer.nameUnder? Pointer.schemaTable)

/-- The name of the sibling property that the node points at. -/
def siblingName? (schema : Schema) : Option String :=
  schema.pointer.bind (Pointer.nameUnder? Pointer.siblingTable)

/-- Whether the node has properties of its own. -/
def hasProperties (schema : Schema) : Bool := !schema.properties.isEmpty

/-- The names of the declared types. -/
def typeNames (schema : Schema) : List String :=
  match schema.declared with
  | some (.single name) => [name]
  | some (.several names) => names
  | none => []

/-- Whether a name is among the declared types. -/
def declares (schema : Schema) (name : String) : Bool := schema.typeNames.contains name

/-! ## Variants that stand for null -/

/-- Whether the literals are just null, or just the word for it. -/
def isNullLiterals : List Literal → Bool
  | [.null] => true
  | [.string text] => text = "null"
  | _ => false

/-- Whether a JSON value is the object without fields. -/
def isEmptyObject : Json → Bool
  | .obj [] => true
  | _ => false

/-- Whether the node only stands for "absent" among the variants of a union: its
    types are all null, it excludes everything, or it is nullable with null as
    its only literal. -/
def isNullSentinel (schema : Schema) : Bool :=
  (!schema.typeNames.isEmpty && schema.typeNames.all (· = "null")) ||
    schema.negated.any isEmptyObject ||
    (schema.nullable = some true && schema.literals.any isNullLiterals)

/-- The variants that are not sentinels. -/
def realVariants (schema : Schema) : List Schema :=
  schema.variants.filter fun variant => !variant.isNullSentinel

/-- The only real variant of a union of several variants; any other node itself. -/
def unwrapNullable (schema : Schema) : Schema :=
  if schema.variants.length < 2 then schema
  else
    match schema.realVariants with
    | [only] => only
    | _ => schema

/-- The node of the elements of an array: the node's own if it declares an array,
    else that of the first variant that does. -/
def arrayItems (schema : Schema) : Option Schema :=
  if schema.declares "array" then schema.items
  else (schema.variants.find? fun variant => variant.declares "array").bind Schema.items

end Schema
end ApiDigest
