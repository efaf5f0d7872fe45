/-
  Descriptions of an interface, as far as a digest reads them.

  A document has paths with operations, and a table of named schemas.  An
  operation has parameters, a body and responses, and those have schemas by media
  type.

  * `PathItem.operations` lists the operations of a path in visiting order;
  * `Document.visits` lists all operations of a document in visiting order.
-/
import ApiDigest.Document.Schema
import ApiDigest.Method
import ApiDigest.Table

namespace ApiDigest

/-! ## Parts of a document -/

/-- The content of a body for one media type. -/
structure MediaType where
  schema : Option Schema

/-- A parameter of an operation. -/
structure Parameter where
  name : String
  /-- Where the parameter is sent; any text. -/
  place : String
  required : Bool
  schema : Option Schema

/-- The body of a request. -/
structure Body where
  required : Bool
  content : Table MediaType

/-- A response. -/
structure Response where
  content : Table MediaType

/-- An operation. -/
structure Operation where
  id : Option String
  tags : List String
  parameters : List Parameter
  body : Option Body
  /-- The responses by status. -/
  responses : Table Response

/-- The operations under one path, and the parameters they share. -/
structure PathItem where
  operation : Method → Option Operation
  parameters : List Parameter

/-- A document: its paths and its table of schemas. -/
structure Document where
  paths : Table PathItem
  schemas : Table Schema

/-! ## Visiting the operations -/

/-- The operations of a path, in the order of the methods. -/
def PathItem.operations (item : PathItem) : List (Method × Operation) :=
  Method.all.filterMap fun m => (item.operation m).map fun op => (m, op)

/-- An operation together with where it stands. -/
structure Visit where
  path : String
  method : Method
  operation : Operation
  /-- The parameters of the path. -/
  shared : List Parameter

/-- The operations of one path. -/
def PathItem.visits (path : String) (item : PathItem) : List Visit :=
  item.operations.map fun (m, op) => ⟨path, m, op, item.parameters⟩

/-- All operations, in the order of the paths and then of the methods. -/
def Document.visits (document : Document) : List Visit :=
  document.paths.entries.flatMap fun (path, item) => item.visits path

/-- An operation's own identifier; an empty one counts for none. -/
def Operation.explicitId? (op : Operation) : Option String := op.id.filter (· ≠ "")

end ApiDigest
