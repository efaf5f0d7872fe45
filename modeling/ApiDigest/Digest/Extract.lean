/-
  The digest of a document.

  The operations are visited in order.  An operation without an identifier gets
  the first free name for the one that its method and path suggest; names that
  are declared anywhere in the document are not free.  A body or response whose
  schema has properties of its own gets a schema record of its own, under the
  first free name that is made from the operation's identifier.

  * `Document.operationIds` are the identifiers, one per visit;
  * `mergeParameters` joins the parameters of a path and an operation;
  * `Slot` is a body or a response, with the name that its record would have;
  * `Document.digest` puts everything together.
-/
import ApiDigest.Digest.Property
import ApiDigest.Document
import ApiDigest.OperationId

namespace ApiDigest

/-! ## Identifiers -/

/-- The identifiers of some visits, given those that are taken. -/
def Visit.ids (taken : List String) : List Visit → List String
  | [] => []
  | visit :: rest =>
    match visit.operation.explicitId? with
    | some id => id :: ids taken rest
    | none =>
      let id := Naming.freeName taken (OperationId.infer visit.method visit.path)
      id :: ids (id :: taken) rest

/-- The identifiers that the document declares. -/
def Document.explicitIds (document : Document) : List String :=
  document.visits.filterMap fun visit => visit.operation.explicitId?

/-- The identifiers of the operations, one per visit. -/
def Document.operationIds (document : Document) : List String :=
  Visit.ids document.explicitIds document.visits

/-! ## Parameters -/

/-- The record of a parameter; one elsewhere or without a name has none. -/
def Parameter.record? (parameter : Parameter) : Option ParamRecord :=
  match ParamPlace.ofName? parameter.place with
  | none => none
  | some place =>
    if parameter.name = "" then none
    else
      some {
        name := parameter.name
        type := (parameter.schema.map Schema.valueType).getD (.base .unknown)
        required := parameter.required
        place }

/-- Whether two parameters are the same one: name and place are equal. -/
def ParamRecord.sameAs (a b : ParamRecord) : Bool := a.name = b.name && a.place = b.place

/-- Adds a parameter at the end, in the stead of an earlier one that is the same. -/
def ParamRecord.put (merged : List ParamRecord) (record : ParamRecord) : List ParamRecord :=
  merged.filter (fun earlier => !earlier.sameAs record) ++ [record]

/-- The parameters of an operation together with those of its path; later ones
    replace earlier ones that are the same. -/
def mergeParameters (shared own : List Parameter) : List ParamRecord :=
  ((shared ++ own).filterMap Parameter.record?).foldl ParamRecord.put []

/-- The parameters at one place. -/
def ParamRecord.at (place : ParamPlace) (records : List ParamRecord) : List ParamRecord :=
  records.filter fun record => record.place = place

/-! ## Bodies and responses -/

/-- The schema of a body: that of `application/json` if it has one, else the first
    one of a media type that ends in `+json`, else the first one. -/
def selectSchema (content : Table MediaType) : Option Schema :=
  ((content.get? "application/json").bind MediaType.schema).or
    ((content.entries.filter fun entry => Text.endsWith "+json" entry.1).findSome?
      (fun entry => entry.2.schema) |>.or
      (content.entries.findSome? fun entry => entry.2.schema))

/-- The statuses of a successful response, best first. -/
def successStatuses : List String := ["200", "201", "default"]

/-- The schema of an operation's body. -/
def Operation.bodySchema? (op : Operation) : Option Schema :=
  op.body.bind fun body => selectSchema body.content

/-- The schema of an operation's first successful response. -/
def Operation.responseSchema? (op : Operation) : Option Schema :=
  (successStatuses.findSome? op.responses.get?).bind fun response => selectSchema response.content

/-- A body or a response of an operation: the name that a record of its own would
    have, and its node without a wrapper for null. -/
structure Slot where
  wish : String
  node : Schema

namespace Slot

/-- The slot for a schema, if there is one. -/
def of? (id ending : String) (schema : Option Schema) : Option Slot :=
  schema.map fun node => ⟨Naming.capitalize id ++ ending, node.unwrapNullable⟩

/-- Whether the slot gets a schema record of its own. -/
def isInline (slot : Slot) : Bool := slot.node.tableName?.isNone && slot.node.hasProperties

/-- The record of a slot of its own, if it gets one, given the names that are taken. -/
def record? (taken : List String) (slot : Slot) : Option SchemaRecord :=
  if slot.isInline then some (slot.node.record (Naming.freeName taken slot.wish)) else none

/-- What an operation says about a slot with the given record. -/
def shapeRef (slot : Slot) : Option SchemaRecord → ShapeRef
  | some record => .named record.name
  | none => slot.node.shapeRef

end Slot

/-- The slot of an operation's body. -/
def Operation.bodySlot? (id : String) (op : Operation) : Option Slot :=
  Slot.of? id "Body" op.bodySchema?

/-- The slot of an operation's response. -/
def Operation.responseSlot? (id : String) (op : Operation) : Option Slot :=
  Slot.of? id "Response" op.responseSchema?

/-! ## The digest -/

/-- The record of an operation with the given identifier and shapes. -/
def Visit.record (visit : Visit) (id : String) (body response : Option ShapeRef) :
    OperationRecord :=
  let parameters := mergeParameters visit.shared visit.operation.parameters
  { id
    method := visit.method
    path := visit.path
    pathParams := ParamRecord.at .path parameters
    queryParams := ParamRecord.at .query parameters
    body
    response
    tags := visit.operation.tags }

/-- The records of some visits with their identifiers, and the schema records made
    for their slots, given the schema names that are taken. -/
def Visit.digest (taken : List String) : List (Visit × String) → Digest
  | [] => ⟨[], []⟩
  | (visit, id) :: rest =>
    let body := visit.operation.bodySlot? id
    let response := visit.operation.responseSlot? id
    let bodyRecord := body.bind (Slot.record? taken)
    let taken := (bodyRecord.map SchemaRecord.name).toList ++ taken
    let responseRecord := response.bind (Slot.record? taken)
    let taken := (responseRecord.map SchemaRecord.name).toList ++ taken
    let others := digest taken rest
    let shape (slot : Option Slot) (record : Option SchemaRecord) : Option ShapeRef :=
      slot.map fun slot => slot.shapeRef record
    { operations :=
        visit.record id (shape body bodyRecord) (shape response responseRecord) ::
          others.operations
      schemas := bodyRecord.toList ++ responseRecord.toList ++ others.schemas }

/-- The records of the schema table. -/
def Document.tableRecords (document : Document) : List SchemaRecord :=
  document.schemas.entries.map fun (name, schema) => schema.record name

/-- The digest of a document: its operations in visiting order, and the records of
    its schema table before those made for bodies and responses. -/
def Document.digest (document : Document) : Digest :=
  let visited := Visit.digest document.schemas.keys (document.visits.zip document.operationIds)
  { operations := visited.operations
    schemas := document.tableRecords ++ visited.schemas }

end ApiDigest
