/-
  Reading documents from JSON, leniently.

  A field of the wrong shape counts as absent.  In a table a wrong entry is
  dropped, in a list a wrong element.  Wherever an object with known fields is
  expected an array will do: its items are the fields in order of declaration.

  * `Json.record?` is that reading of objects and arrays as fields;
  * `Schema.ofJson?` reads a schema node; it fails on scalars, and on arrays with
    more items than a node has fields;
  * `Fields.readOr?` reads a field with a reader that may fail, and `Json.lenient?` and
    `Json.lenientTable?` are the readers that do not;
  * `Document.ofJson` reads a document, whose root has to be an object: that is all that
    can be wrong with it, `Document.ofJson_obj`.
-/
import ApiDigest.Document
import ApiDigest.Json.Reader

namespace ApiDigest

/-! ## Records, tables and lists -/

namespace Json

/-- The fields of a record with the given names: those of an object, or the items
    of an array in the order of the names, if it is not too long. -/
def record? (names : List String) : Json → Option (List (String × Json))
  | .obj fields => some fields
  | .arr items => if items.length ≤ names.length then some (names.zip items) else none
  | _ => none

/-- The entries of an object that can be read; other values have none. -/
def readEntries {α : Type} (read : Json → Option α) : Json → List (String × α)
  | .obj fields => Fields.filterMapValues read fields
  | _ => []

/-- The items of an array that can be read; other values have none. -/
def readItems {α : Type} (read : Json → Option α) : Json → List α
  | .arr items => items.filterMap read
  | _ => []

end Json

namespace Fields

/-- The value of a key, read; nothing if it is absent or of the wrong shape. -/
def read {α : Type} (key : String) (f : Json → Option α) (fields : List (String × Json)) :
    Option α :=
  (get? key fields).bind f

/-- The table at a key. -/
def readTable {α : Type} (key : String) (f : Json → Option α) (fields : List (String × Json)) :
    Table α :=
  Table.ofList (((get? key fields).map (Json.readEntries f)).getD [])

/-- The list at a key. -/
def readList {α : Type} (key : String) (f : Json → Option α) (fields : List (String × Json)) :
    List α :=
  ((get? key fields).map (Json.readItems f)).getD []

end Fields

/-! ## Schemas -/

/-- A declared type: a text, or a list of texts. -/
def DeclaredType.ofJson? : Json → Option DeclaredType
  | .str name => some (.single name)
  | .arr items => (items.mapM Json.str?).map .several
  | _ => none

/-- A literal; an integer beyond 63 bits and a sign is read as a double. -/
def Literal.ofJson? : Json → Option Literal
  | .null => some .null
  | .bool value => some (.bool value)
  | .str value => some (.string value)
  | .num (.int n) =>
    some (if -0x8000000000000000 ≤ n ∧ n < 0x8000000000000000 then .integer n
      else .double (Binary64.ofInt n))
  | .num (.double x) => some (.double x)
  | _ => none

/-- A list of literals; one that is none spoils the list. -/
def Literal.listOfJson? : Json → Option (List Literal)
  | .arr items => items.mapM Literal.ofJson?
  | _ => none

namespace Schema

/-- The fields of a schema node in order of declaration. -/
def fieldNames : List String :=
  ["type", "format", "$ref", "properties", "required", "items", "enum", "anyOf", "not", "nullable"]

/-- What a JSON value is as a node, as a table of nodes and as a list of nodes. -/
structure Reading where
  node : Option Schema
  entries : List (String × Schema)
  elements : List Schema
deriving Inhabited

/-- The node with the given fields, given the readings of their values. -/
def assemble (fields : List (String × Json)) (readings : List (String × Reading)) : Schema where
  declared := Fields.read "type" DeclaredType.ofJson? fields
  format := Fields.read "format" Json.str? fields
  pointer := Fields.read "$ref" Json.str? fields
  properties := ((Fields.get? "properties" readings).map Reading.entries).getD []
  required := Fields.readList "required" Json.str? fields
  items := (Fields.get? "items" readings).bind Reading.node
  literals := Fields.read "enum" Literal.listOfJson? fields
  variants := ((Fields.get? "anyOf" readings).map Reading.elements).getD []
  negated := Fields.read "not" (fun
    | .null => none
    | value => some value) fields
  nullable := Fields.read "nullable" Json.bool? fields

mutual

/-- The three readings of a value. -/
def readJson : Json → Reading
  | .obj fields =>
    let readings := readFields fields
    ⟨some (assemble fields readings), Fields.filterMapValues Reading.node readings, []⟩
  | .arr items =>
    let readings := readElements items
    let node :=
      if items.length ≤ fieldNames.length then
        some (assemble (fieldNames.zip items) (fieldNames.zip readings))
      else none
    ⟨node, [], readings.filterMap Reading.node⟩
  | _ => ⟨none, [], []⟩

/-- The readings of the values of fields. -/
def readFields : List (String × Json) → List (String × Reading)
  | [] => []
  | (key, value) :: rest => (key, readJson value) :: readFields rest

/-- The readings of items. -/
def readElements : List Json → List Reading
  | [] => []
  | value :: rest => readJson value :: readElements rest

end

/-- The schema node that a value spells. -/
def ofJson? (value : Json) : Option Schema := (readJson value).node

end Schema

/-! ## Operations -/

/-- The content for a media type. -/
def MediaType.ofJson? (value : Json) : Option MediaType :=
  (value.record? ["schema"]).map fun fields => ⟨Fields.read "schema" Schema.ofJson? fields⟩

/-- A parameter; name and place are empty when absent. -/
def Parameter.ofJson? (value : Json) : Option Parameter :=
  (value.record? ["name", "in", "required", "schema"]).map fun fields =>
    { name := (Fields.read "name" Json.str? fields).getD ""
      place := (Fields.read "in" Json.str? fields).getD ""
      required := (Fields.read "required" Json.bool? fields).getD false
      schema := Fields.read "schema" Schema.ofJson? fields }

/-- A request body. -/
def Body.ofJson? (value : Json) : Option Body :=
  (value.record? ["required", "content"]).map fun fields =>
    { required := (Fields.read "required" Json.bool? fields).getD false
      content := Fields.readTable "content" MediaType.ofJson? fields }

/-- A response. -/
def Response.ofJson? (value : Json) : Option Response :=
  (value.record? ["content"]).map fun fields =>
    ⟨Fields.readTable "content" MediaType.ofJson? fields⟩

/-- An operation. -/
def Operation.ofJson? (value : Json) : Option Operation :=
  let names := ["operationId", "tags", "parameters", "requestBody", "responses"]
  (value.record? names).map fun fields =>
    { id := Fields.read "operationId" Json.str? fields
      tags := Fields.readList "tags" Json.str? fields
      parameters := Fields.readList "parameters" Parameter.ofJson? fields
      body := Fields.read "requestBody" Body.ofJson? fields
      responses := Fields.readTable "responses" Response.ofJson? fields }

/-- The operations under a path. -/
def PathItem.ofJson? (value : Json) : Option PathItem :=
  (value.record? (Method.all.map Method.key ++ ["parameters"])).map fun fields =>
    { operation := fun m => Fields.read m.key Operation.ofJson? fields
      parameters := Fields.readList "parameters" Parameter.ofJson? fields }

/-! ## Documents -/

/-- The kinds of JSON values. -/
inductive Json.Kind where
  | null
  | boolean
  | number
  | string
  | sequence
  | mapping
deriving DecidableEq, Repr

/-- The kind of a value. -/
def Json.kind : Json → Json.Kind
  | .null => .null
  | .bool _ => .boolean
  | .num _ => .number
  | .str _ => .string
  | .arr _ => .sequence
  | .obj _ => .mapping

/-- A kind in a message. -/
def Json.Kind.name : Json.Kind → String
  | .null => "null"
  | .boolean => "a boolean"
  | .number => "a number"
  | .string => "a string"
  | .sequence => "a sequence"
  | .mapping => "a mapping"

/-- Why a document could not be read. -/
inductive Document.Error where
  /-- The root is not an object. -/
  | notAMapping (found : Json.Kind)
  /-- The text is not JSON, or a reader failed. -/
  | invalid
deriving DecidableEq, Repr

/-- The wording of an error. -/
def Document.Error.message : Document.Error → String
  | .notAMapping found => "document root must be a mapping, found " ++ found.name
  | .invalid => "failed to read document: not a JSON text"

/-- The value of a key, by a reader that may fail; an absent one has a default. -/
def Fields.readOr? {α : Type} (key : String) (reader : Json → Option α) (default : α)
    (fields : List (String × Json)) : Option α :=
  match get? key fields with
  | some value => reader value
  | none => some default

/-- A reader for any value, with a default for those that another reader fails on. -/
def Json.lenient? {α : Type} (reader : Json → Option α) (default : α) (value : Json) : Option α :=
  some ((reader value).getD default)

/-- A reader of any value as a table. -/
def Json.lenientTable? {α : Type} (reader : Json → Option α) (value : Json) : Option (Table α) :=
  some (Table.ofList (value.readEntries reader))

/-- The table of schemas among reusable parts. -/
def Document.schemasOfJson? (value : Json) : Option (Table Schema) :=
  (value.record? ["schemas"]).bind
    (Fields.readOr? "schemas" (Json.lenientTable? Schema.ofJson?) (Table.ofList []))

/-- Reads the fields at the root of a document; a reader that fails makes it fail. -/
def Document.read? (fields : List (String × Json)) : Option Document := do
  let paths ← Fields.readOr? "paths" (Json.lenientTable? PathItem.ofJson?) (Table.ofList []) fields
  let schemas ← Fields.readOr? "components"
    (Json.lenient? Document.schemasOfJson? (Table.ofList [])) (Table.ofList []) fields
  return ⟨paths, schemas⟩

/-- The document that a value spells. -/
def Document.ofJson : Json → Except Document.Error Document
  | .obj fields =>
    match Document.read? fields with
    | some document => .ok document
    | none => .error .invalid
  | other => .error (.notAMapping other.kind)

/-- The document with the given fields at its root. -/
def Document.ofFields (fields : List (String × Json)) : Document where
  paths := Fields.readTable "paths" PathItem.ofJson? fields
  schemas :=
    Fields.readTable "schemas" Schema.ofJson?
      ((Fields.read "components" (Json.record? ["schemas"]) fields).getD [])

theorem Fields.readOr?_lenientTable? {α : Type} (key : String) (reader : Json → Option α)
    (fields : List (String × Json)) :
    readOr? key (Json.lenientTable? reader) (Table.ofList []) fields =
      some (readTable key reader fields) := by
  rw [readOr?, readTable]
  cases get? key fields <;> rfl

/-- **Reading the fields of a document never fails**, whatever their values are. -/
theorem Document.read?_eq_ofFields (fields : List (String × Json)) :
    read? fields = some (ofFields fields) := by
  have hschemas : Fields.readOr? "components" (Json.lenient? schemasOfJson? (Table.ofList []))
      (Table.ofList []) fields = some (ofFields fields).schemas := by
    rw [Fields.readOr?, ofFields, Fields.read]
    cases Fields.get? "components" fields with
    | none => rfl
    | some value =>
      simp only [Json.lenient?, schemasOfJson?, Option.bind_some]
      cases value.record? ["schemas"] with
      | none => rfl
      | some components => rw [Option.bind_some, Fields.readOr?_lenientTable?]; rfl
  rw [read?, Fields.readOr?_lenientTable?, hschemas]
  rfl

@[simp]
theorem Document.ofJson_obj (fields : List (String × Json)) :
    ofJson (.obj fields) = .ok (ofFields fields) := by
  rw [ofJson, read?_eq_ofFields]

/-- The document that a JSON text spells. -/
def Document.ofText (text : String) : Except Document.Error Document :=
  match Json.read text with
  | some value => Document.ofJson value
  | none => .error .invalid

end ApiDigest
