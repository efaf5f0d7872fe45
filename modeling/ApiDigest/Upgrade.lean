/-
  Bringing documents of the older dialect into the shape of the newer one.

  * `Upgrade.operation`, `Upgrade.pathItem`, `Upgrade.response` and
    `Upgrade.components` bring over the parts;
  * `Json.upgrade` brings over a document and then moves all pointers.

  What is not understood is carried over as it is.
-/
import ApiDigest.Upgrade.Parameters
import ApiDigest.Upgrade.Pointers

namespace ApiDigest

namespace Upgrade

/-! ## Responses -/

/-- The texts in the array at a key. -/
def texts (key : String) (fields : List (String × Json)) : List String :=
  (((Fields.get? key fields).bind Json.items?).getD []).filterMap Json.str?

/-- The media type of responses: the first JSON type, else the first with JSON in
    its name, else JSON. -/
def responseMediaType (produces : List String) : String :=
  ((produces.find? fun media => media = "application/json" || Text.endsWith "+json" media).or
    (produces.find? fun media => Text.hasInside "json".toList media.toList)).getD
    "application/json"

/-- A response in the newer dialect; pointers stay. -/
def response (produces : List String) : Json → Json
  | .obj fields =>
    if Fields.contains "$ref" fields then .obj fields
    else
      let fields := match Fields.take "schema" fields with
        | (some schema, rest) =>
          Fields.insert "content" (content (responseMediaType produces) schema) rest
        | (none, rest) => rest
      let fields := Fields.erase "examples" fields
      .obj (if Fields.contains "description" fields then fields
        else Fields.insert "description" (.str "") fields)
  | other => other

/-! ## Operations -/

/-- What the parameters of an operation come to: its parameters proper, its last
    body, and its form. -/
structure Inputs where
  parameters : List Json
  body : Option Json
  form : Form

/-- Adds a parameter. -/
def Inputs.add (inputs : Inputs) (param : Json) : Inputs :=
  match param.text? "in" with
  | some "body" => { inputs with body := some (bodyOf param) }
  | some "formData" => { inputs with form := inputs.form.add param }
  | _ => { inputs with parameters := inputs.parameters ++ [parameter param] }

/-- The inputs that a list of parameters comes to. -/
def Inputs.ofList (params : List Json) : Inputs := params.foldl Inputs.add ⟨[], none, .empty⟩

/-- The array at a key; other values count as empty. -/
def itemsAt (key : String) (fields : List (String × Json)) : List Json :=
  ((Fields.get? key fields).bind Json.items?).getD []

/-- Puts a value at a key, if there is one. -/
def insertSome (key : String) (value : Option Json) (fields : List (String × Json)) :
    List (String × Json) :=
  match value with
  | some value => Fields.insert key value fields
  | none => fields

/-- A non-empty array of values. -/
def someItems (items : List Json) : Option Json := if items.isEmpty then none else some (.arr items)

/-- The fields of an operation, given the body parameters of its path, the reusable
    parameters and the media types of the document. -/
def operation (sharedBody : List Json) (reusable : List (String × Json))
    (documentProduces : List String) (fields : List (String × Json)) : List (String × Json) :=
  let own := texts "produces" fields
  let produces := if own.isEmpty then documentProduces else own
  let inputs :=
    Inputs.ofList (sharedBody ++ (itemsAt "parameters" fields).map (inlineBodyLike reusable))
  let rest := eraseAll ["produces", "consumes", "schemes", "parameters"] fields
  let rest := insertSome "parameters" (someItems inputs.parameters) rest
  let rest := insertSome "requestBody" (inputs.body.or inputs.form.body?) rest
  match Fields.take "responses" rest with
  | (some (.obj responses), rest) =>
    Fields.insert "responses" (.obj (Fields.mapValues (response produces) responses)) rest
  | (_, rest) => rest

/-- The keys of a path item that hold operations. -/
def methods : List String := ["get", "put", "post", "delete", "options", "head", "patch"]

/-- One field of a path item: operations are brought over, and what stands in the
    place of one without being an object is dropped. -/
def pathItemField? (sharedBody : List Json) (reusable : List (String × Json))
    (documentProduces : List String) (field : String × Json) : Option (String × Json) :=
  if field.1 ∈ methods then
    field.2.fields?.map fun fields =>
      (field.1, .obj (operation sharedBody reusable documentProduces fields))
  else some field

/-- The fields of a path item: its parameters first, without those that are part
    of a body, which go to the operations. -/
def pathItem (reusable : List (String × Json)) (documentProduces : List String)
    (fields : List (String × Json)) : List (String × Json) :=
  let shared := (itemsAt "parameters" fields).map (inlineBodyLike reusable)
  let (sharedBody, sharedRest) := shared.partition isBodyLike
  let parameters := (someItems (sharedRest.map parameter)).map fun items => ("parameters", items)
  parameters.toList ++
    (Fields.erase "parameters" fields).filterMap
      (pathItemField? sharedBody reusable documentProduces)

/-! ## Documents -/

/-- The addresses of the servers: the host under each scheme, or the base path
    alone; under a secure scheme if none is given. -/
def servers (fields : List (String × Json)) : List Json :=
  let textAt (key : String) : Option String := (Fields.get? key fields).bind Json.str?
  let base := String.ofList (Text.trimEnd (· = '/') ((textAt "basePath").getD "").toList)
  let urls := match textAt "host" with
    | none => if base = "" then [] else [base]
    | some host =>
      let schemes := texts "schemes" fields
      (if schemes.isEmpty then ["https"] else schemes).map fun scheme =>
        scheme ++ "://" ++ host ++ base
  urls.map fun url => .obj [("url", .str url)]

/-- The object at a key; other values count as empty. -/
def objectAt (key : String) (fields : List (String × Json)) : List (String × Json) :=
  ((Fields.get? key fields).bind Json.fields?).getD []

/-- The reusable parts, in the order schemas, parameters, responses, security. -/
def components (fields : List (String × Json)) : List (String × Json) :=
  let parameters :=
    Fields.mapValues parameter ((objectAt "parameters" fields).filter fun entry =>
      !isBodyLike entry.2)
  let produces := texts "produces" fields
  let at? (key : String) (value : Option Json) : List (String × Json) :=
    (value.map fun value => (key, value)).toList
  at? "schemas" (Fields.get? "definitions" fields) ++
    at? "parameters" (if parameters.isEmpty then none else some (.obj parameters)) ++
    at? "responses" (((Fields.get? "responses" fields).bind Json.fields?).map fun entries =>
      .obj (Fields.mapValues (response produces) entries)) ++
    at? "securitySchemes" (Fields.get? "securityDefinitions" fields)

/-- The paths, without those that are no objects. -/
def paths (fields : List (String × Json)) : List (String × Json) :=
  Fields.filterMapValues
    (fun item => item.fields?.map fun item =>
      .obj (pathItem (objectAt "parameters" fields) (texts "produces" fields) item))
    (objectAt "paths" fields)

/-- The fields of a document in the newer dialect, with pointers as they were. -/
def document (fields : List (String × Json)) : List (String × Json) :=
  ("openapi", .str "3.0.0") ::
    select ["info", "tags", "externalDocs", "security"] fields ++
    ((someItems (servers fields)).map fun urls => ("servers", urls)).toList ++
    [("paths", .obj (paths fields)), ("components", .obj (components fields))]

end Upgrade

/-- A document of the older dialect in the shape of the newer one; values that are
    no objects stay. -/
def Json.upgrade : Json → Json
  | .obj fields => Upgrade.move (.obj (Upgrade.document fields))
  | other => other

end ApiDigest
