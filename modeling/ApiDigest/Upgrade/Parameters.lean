/-
  Parameters and bodies of the older dialect.

  In the older dialect a request body is a parameter, either a single one or one
  for each field of a form.

  * `Upgrade.parameter` moves what describes the value of a parameter into a
    schema;
  * `Upgrade.bodyOf` is the request body for a body parameter, and `Form.body?`
    the one for the fields of a form.
-/
import ApiDigest.Json
import ApiDigest.Text

namespace ApiDigest.Upgrade

/-! ## Parameters -/

/-- The keys of a parameter that describe its value, in the order of the schema. -/
def schemaKeys : List String :=
  ["type", "format", "items", "enum", "default", "minimum", "maximum", "exclusiveMinimum",
    "exclusiveMaximum", "minLength", "maxLength", "pattern"]

/-- The fields among the given keys that are present, in the order of the keys. -/
def select (keys : List String) (fields : List (String × Json)) : List (String × Json) :=
  keys.filterMap fun key => (Fields.get? key fields).map fun value => (key, value)

/-- The fields without the given keys, removed one after another. -/
def eraseAll (keys : List String) (fields : List (String × Json)) : List (String × Json) :=
  keys.foldl (fun fields key => Fields.erase key fields) fields

/-- A parameter in the newer dialect; pointers stay. -/
def parameter : Json → Json
  | .obj fields =>
    if Fields.contains "$ref" fields then .obj fields
    else
      let schema := select schemaKeys fields
      let rest := eraseAll ("collectionFormat" :: schemaKeys) fields
      let rest := if schema.isEmpty then rest else Fields.insert "schema" (.obj schema) rest
      if ((Fields.get? "in" rest).bind Json.str?) = some "path" then
        .obj (Fields.insert "required" (.bool true) rest)
      else .obj rest
  | other => other

/-- Whether a parameter is part of the request body. -/
def isBodyLike (parameter : Json) : Bool :=
  parameter.text? "in" = some "body" || parameter.text? "in" = some "formData"

/-- Replaces a pointer to a reusable parameter that is part of the body by that
    parameter; others stay. -/
def inlineBodyLike (reusable : List (String × Json)) (parameter : Json) : Json :=
  match ((parameter.text? "$ref").bind (Text.afterStart? "#/parameters/")).bind
      (fun name => Fields.get? name reusable) with
  | some target => if isBodyLike target then target else parameter
  | none => parameter

/-! ## Request bodies -/

/-- The content of a single media type with a schema. -/
def content (mediaType : String) (schema : Json) : Json :=
  .obj [(mediaType, .obj [("schema", schema)])]

/-- Whether a parameter is required. -/
def isRequired (parameter : Json) : Bool :=
  (parameter.get? "required").bind Json.bool? = some true

/-- The description of a parameter, as fields. -/
def description (parameter : Json) : List (String × Json) :=
  ((parameter.get? "description").map fun text => ("description", text)).toList

/-- The request body for a body parameter. -/
def bodyOf (parameter : Json) : Json :=
  .obj (description parameter ++
    [("content", content "application/json" ((parameter.get? "schema").getD (.obj [])))] ++
    if isRequired parameter then [("required", .bool true)] else [])

/-- The fields of a form. -/
structure Form where
  properties : List (String × Json)
  required : List String
  /-- Whether one of the fields is a file. -/
  multipart : Bool

namespace Form

/-- The form without fields. -/
def empty : Form := ⟨[], [], false⟩

/-- Whether a parameter is a file. -/
def isFile (parameter : Json) : Bool := parameter.text? "type" = some "file"

/-- The schema of a field. -/
def schemaOf (parameter : Json) : Json :=
  let fields :=
    if isFile parameter then [("type", .str "string"), ("format", .str "binary")]
    else select schemaKeys (parameter.fields?.getD [])
  .obj (fields ++ description parameter)

/-- Adds a field; one without a name is passed over. -/
def add (form : Form) (parameter : Json) : Form :=
  match parameter.text? "name" with
  | none => form
  | some name =>
    { properties := Fields.insert name (schemaOf parameter) form.properties
      required := if isRequired parameter then form.required ++ [name] else form.required
      multipart := form.multipart || isFile parameter }

/-- The request body for a form with fields. -/
def body? (form : Form) : Option Json :=
  if form.properties.isEmpty then none
  else
    let mediaType :=
      if form.multipart then "multipart/form-data" else "application/x-www-form-urlencoded"
    let required :=
      if form.required.isEmpty then [] else [("required", Json.ofStrings form.required)]
    some (.obj [("content", content mediaType
      (.obj ([("type", .str "object"), ("properties", .obj form.properties)] ++ required)))])

end Form
end ApiDigest.Upgrade
