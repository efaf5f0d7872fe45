/-
  The body of an old operation.

  In an old document the body is a parameter, or one parameter for each field of a
  form; such parameters come from the operation or from its path, in place or by
  pointers.

  * `Upgrade.bodyParameters` are the parameters that the body is made of;
  * `Upgrade.formNode` is the schema node of a form, read off its fields;
  * `Upgrade.body_of_source`: the body of an operation's record.
-/
import ApiDigest.Proofs.FreeNames
import ApiDigest.Proofs.NormalBodies
import ApiDigest.Proofs.UpgradedParameters

namespace ApiDigest.Upgrade

variable {root item op fields : List (String × Json)} {param : Json}

/-! ## Parts of a body -/

/-- The parameters that are part of the body of an operation: those of its path, then
    its own. -/
def bodyParameters (root item op : List (String × Json)) : List Json :=
  (meantParameters root item ++ meantParameters root op).filter isBodyLike

theorem filter_filter_bodyLike {p : Json → Bool}
    (h : ∀ param, p param = true → isBodyLike param = true) (params : List Json) :
    (params.filter isBodyLike).filter p = params.filter p := by
  rw [List.filter_filter]
  refine List.filter_congr fun param _ => ?_
  cases hp : p param with
  | true => rw [h param hp]; rfl
  | false => rfl

theorem isBodyLike_of_isBody (h : isBody param = true) : isBodyLike param = true := by
  rw [isBodyLike_eq, h]; rfl

theorem isBodyLike_of_isForm (h : isForm param = true) : isBodyLike param = true := by
  rw [isBodyLike_eq, h, Bool.or_true]

/-- **The inputs of an operation** are its last body and the fields of its form. -/
theorem operationInputs_eq (hshared : ParametersResolve root item)
    (hown : ParametersResolve root op) :
    (operationInputs root item op).body =
        ((bodyParameters root item op).filter isBody).getLast?.map bodyOf ∧
      (operationInputs root item op).form =
        ((bodyParameters root item op).filter isForm).foldl Form.add .empty := by
  set params := sharedBody (objectAt "parameters" root) item ++
    inlined (objectAt "parameters" root) op with hparams
  have hbodyLike : params.filter isBodyLike = bodyParameters root item op := by
    rw [hparams, bodyParameters, List.filter_append, List.filter_append, sharedBody,
      filter_filter_bodyLike fun _ => id, bodyLike_inlined hshared, bodyLike_inlined hown]
  have hinputs : operationInputs root item op = Inputs.ofList params := rfl
  rw [hinputs, ofList_eq, ← hbodyLike, filter_filter_bodyLike fun _ => isBodyLike_of_isBody,
    filter_filter_bodyLike fun _ => isBodyLike_of_isForm]
  exact ⟨rfl, rfl⟩

/-! ## Forms -/

/-- The fields of a form that have a name, under their names. -/
def formEntries (params : List Json) : List (String × Json) :=
  params.filterMap fun param => (param.text? "name").map fun name => (name, param)

/-- The names of the required fields. -/
def requiredNames (entries : List (String × Json)) : List String :=
  Fields.keys (entries.filter fun entry => isRequired entry.2)

/-- **What a run of additions comes to**: every field is put under its name, and the names
    of the required ones go one behind another. -/
theorem foldl_add_form (params : List Json) (form : Form) :
    params.foldl Form.add form =
      { properties := (Fields.mapValues Form.schemaOf (formEntries params)).foldl
          (fun acc field => Fields.insert field.1 field.2 acc) form.properties
        required := form.required ++ requiredNames (formEntries params)
        multipart := form.multipart || (formEntries params).any fun entry =>
          Form.isFile entry.2 } := by
  induction params generalizing form with
  | nil => simp [formEntries, Fields.mapValues, requiredNames, Fields.keys]
  | cons param rest ih =>
    rw [List.foldl_cons, ih, Form.add]
    cases hname : param.text? "name" with
    | none =>
      have hentries : formEntries (param :: rest) = formEntries rest := by
        simp [formEntries, hname]
      rw [hentries]
    | some name =>
      have hentries : formEntries (param :: rest) = (name, param) :: formEntries rest := by
        simp [formEntries, hname]
      rw [hentries]
      cases hparam : isRequired param <;>
        simp [requiredNames, Fields.mapValues, Fields.keys, hparam, Bool.or_assoc]

/-- The form that a list of fields under their names comes to. -/
def formOf (entries : List (String × Json)) : Form where
  properties := Fields.ofList (Fields.mapValues Form.schemaOf entries)
  required := requiredNames entries
  multipart := entries.any fun entry => Form.isFile entry.2

theorem foldl_add_empty (params : List Json) :
    params.foldl Form.add .empty = formOf (formEntries params) :=
  foldl_add_form params .empty

/-- Under different names all fields stay, in their order. -/
theorem properties_formOf {entries : List (String × Json)} (hnd : (Fields.keys entries).Nodup) :
    (formOf entries).properties = Fields.mapValues Form.schemaOf entries :=
  Fields.ofList_of_nodup (by rwa [Fields.keys_mapValues])

/-- The node of a field: a file is a binary text, any other field is what its keys
    describe. -/
def fieldNode (param : Json) : Schema :=
  if Form.isFile param then
    { Schema.ofType (some (.single "string")) with format := some "binary" }
  else describedNode (param.fields?.getD [])

/-- The node of a form. -/
def formNode (entries : List (String × Json)) : Schema :=
  { Schema.ofType (some (.single "object")) with
    properties := Fields.mapValues fieldNode entries
    required := requiredNames entries }

theorem ofJson?_schemaOf (param : Json) :
    Schema.ofJson? (move (Form.schemaOf param)) = some (fieldNode param) := by
  set described := if Form.isFile param then [("type", .str "string"), ("format", .str "binary")]
    else select schemaKeys (param.fields?.getD []) with hdescribed
  have hget : ∀ k ≠ "description",
      Fields.get? k (described ++ description param) = Fields.get? k described := by
    intro k hk
    rw [Fields.get?_append, description, get?_optional, if_neg hk, Option.or_none]
  have hother : ∀ k ∈ otherKeys, Fields.get? k (described ++ description param) = none := by
    intro k hk
    have hne : k ≠ "description" := by
      rintro rfl
      revert hk
      decide
    rw [hget k hne, hdescribed]
    split_ifs
    · revert k
      decide
    · rw [get?_select, if_neg (notMem_schemaKeys k hk)]
  have hdesc : Form.schemaOf param = .obj (described ++ description param) := rfl
  rw [hdesc, move_obj, Schema.ofJson?_obj, ofFields_moved hother, describedNode,
    hget _ (by decide), hget _ (by decide), hget _ (by decide), hget _ (by decide), hdescribed,
    fieldNode]
  split_ifs with hfile
  · rfl
  · simp only [get?_select, describedNode]
    rfl

/-- The type of a field. -/
def fieldType (param : Json) : ValueType :=
  if Form.isFile param then .base .string
  else (Schema.ofType ((param.get? "type").bind DeclaredType.ofJson?)).valueType

theorem valueType_fieldNode (param : Json) : (fieldNode param).valueType = fieldType param := by
  have htype : Fields.get? "type" (param.fields?.getD []) = param.get? "type" := by
    rw [Json.get?]
    cases param.fields? <;> rfl
  rw [fieldNode, fieldType]
  split_ifs
  · rfl
  · rw [valueType_describedNode, htype]

theorem contains_requiredNames {entries : List (String × Json)} (hnd : (Fields.keys entries).Nodup)
    {name : String} (hmem : (name, param) ∈ entries) :
    (requiredNames entries).contains name = isRequired param := by
  rw [Bool.eq_iff_iff, List.contains_iff_mem, requiredNames, Fields.keys, List.mem_map]
  constructor
  · rintro ⟨⟨other, param'⟩, hfiltered, rfl⟩
    obtain ⟨hmem', hrequired⟩ := List.mem_filter.1 hfiltered
    have hsame := (Fields.get?_of_mem hnd hmem).symm.trans (Fields.get?_of_mem hnd hmem')
    rwa [Option.some.inj hsame]
  · intro hrequired
    exact ⟨_, List.mem_filter.2 ⟨hmem, hrequired⟩, rfl⟩

/-- **The properties of a form** are its fields in order, required as declared. -/
theorem propertyRecords_formNode {entries : List (String × Json)}
    (hnd : (Fields.keys entries).Nodup) :
    (formNode entries).propertyRecords.map
        (fun property => (property.name, property.type, property.required)) =
      entries.map fun entry => (entry.1, fieldType entry.2, isRequired entry.2) := by
  have hplain : ∀ (siblings : List (String × Schema)) (param : Json),
      Schema.resolveSibling siblings (fieldNode param) = fieldNode param := by
    intro siblings param
    have hpointer : (fieldNode param).siblingName? = none := by
      rw [fieldNode]
      split_ifs <;> rfl
    rw [Schema.resolveSibling, hpointer]
    rfl
  rw [Schema.propertyRecords, List.map_map, formNode, Fields.mapValues, List.map_map]
  refine List.map_congr_left fun entry hmem => ?_
  simp only [Function.comp, Schema.propertyRecord, hplain, valueType_fieldNode,
    contains_requiredNames hnd hmem]

/-- The fields of the schema of a form. -/
def formFields (form : Form) : List (String × Json) :=
  [("type", .str "object"), ("properties", .obj form.properties)] ++
    if form.required.isEmpty then [] else [("required", Json.ofStrings form.required)]

/-- The media type of a form. -/
def formMedia (form : Form) : String :=
  if form.multipart then "multipart/form-data" else "application/x-www-form-urlencoded"

theorem formMedia_ne (form : Form) : formMedia form ≠ "x-nullable" := by
  rw [formMedia]
  split_ifs <;> decide

theorem body?_form {form : Form} (h : form.properties ≠ []) :
    form.body? = some (.obj [("content", content (formMedia form) (.obj (formFields form)))]) := by
  rw [Form.body?, if_neg (by simpa using h)]
  rfl

theorem readItems_ofStrings (names : List String) :
    Json.readItems Json.str? (move (Json.ofStrings names)) = names := by
  have hread : (Json.str? ∘ move) ∘ Json.str = some := funext fun _ => rfl
  rw [Json.ofStrings, move_arr, Json.readItems, List.filterMap_map, List.filterMap_map, hread]
  exact List.filterMap_some

/-- The table of the fields of a form, moved and viewed. -/
theorem readEntries_schemaOf {entries : List (String × Json)}
    (hx : "x-nullable" ∉ Fields.keys entries) :
    Json.readEntries Schema.ofJson? (move (.obj (Fields.mapValues Form.schemaOf entries))) =
      Fields.mapValues fieldNode entries := by
  have hobjects : ∀ field ∈ Fields.mapValues Form.schemaOf entries, field.2.fields?.isSome := by
    intro field hmem
    obtain ⟨entry, -, rfl⟩ := List.mem_map.1 hmem
    rfl
  rw [move_obj, moveObject_of_objects (by rwa [Fields.keys_mapValues]) hobjects, Json.readEntries,
    Fields.filterMapValues, Fields.mapValues, Fields.mapValues, List.filterMap_map,
    List.filterMap_map, Fields.mapValues, ← List.filterMap_eq_map]
  refine List.filterMap_congr fun entry _ => ?_
  simp only [Function.comp, ofJson?_schemaOf, Option.map_some]

/-- **The schema of a form is viewed as its node.** -/
theorem ofFields_form {entries : List (String × Json)} (hnd : (Fields.keys entries).Nodup)
    (hx : "x-nullable" ∉ Fields.keys entries) :
    Schema.ofFields (moveObject (moveFields (formFields (formOf entries)))) =
      formNode entries := by
  set form := formOf entries with hform
  have hproperties : form.properties = Fields.mapValues Form.schemaOf entries :=
    properties_formOf hnd
  have hrequired : form.required = requiredNames entries := rfl
  have hget : ∀ k, Fields.get? k (formFields form) =
      if k = "type" then some (.str "object")
      else if k = "properties" then some (.obj (Fields.mapValues Form.schemaOf entries))
      else if k = "required" ∧ form.required ≠ [] then some (Json.ofStrings form.required)
      else none := by
    intro k
    rw [formFields, Fields.get?_append, hproperties, Fields.get?_cons, Fields.get?_cons]
    by_cases htype : k = "type"
    · simp [htype]
    · by_cases hprops : k = "properties"
      · simp [hprops]
      · by_cases hempty : form.required = [] <;> by_cases hreq : k = "required" <;>
          simp [htype, hprops, hempty, hreq, Fields.get?_cons, Ne.symm]
  have hnullable : "x-nullable" ∉ Fields.keys (formFields form) := by
    rw [← Fields.get?_eq_none_iff, hget]
    simp
  have hmoved := get?_moveObject_of_notMem hnullable
  have hnone : ∀ k ∈ ["format", "$ref", "items", "enum", "anyOf", "not", "nullable"],
      Fields.get? k (moveObject (moveFields (formFields form))) = none := by
    intro k hk
    have hne : k ≠ "type" ∧ k ≠ "properties" ∧ k ≠ "required" := by
      revert k
      decide
    rw [hmoved, hget, if_neg hne.1, if_neg hne.2.1, if_neg fun h => hne.2.2 h.1]
    rfl
  ext1
  · show (Fields.get? "type" _).bind DeclaredType.ofJson? = _
    rw [hmoved, hget]; rfl
  · show (Fields.get? "format" _).bind Json.str? = _
    rw [hnone _ (by decide)]; rfl
  · show (Fields.get? "$ref" _).bind Json.str? = _
    rw [hnone _ (by decide)]; rfl
  · rw [Schema.properties_ofFields, hmoved, hget, if_neg (by decide), if_pos rfl, Option.map_some,
      moveAt_obj, Option.map_some, Option.getD_some]
    exact readEntries_schemaOf hx
  · show ((Fields.get? "required" _).map (Json.readItems Json.str?)).getD [] = _
    rw [hmoved, hget, if_neg (by decide), if_neg (by decide), map_moveAt (by decide), hrequired]
    by_cases hempty : requiredNames entries = []
    · simp [hempty, formNode]
    · rw [if_pos ⟨rfl, hempty⟩]
      exact readItems_ofStrings (requiredNames entries)
  · rw [Schema.items_ofFields, hnone _ (by decide)]; rfl
  · show (Fields.get? "enum" _).bind Literal.listOfJson? = _
    rw [hnone _ (by decide)]; rfl
  · exact Schema.variants_ofFields (hnone _ (by decide))
  · show (Fields.get? "not" _).bind _ = _
    rw [hnone _ (by decide)]; rfl
  · show (Fields.get? "nullable" _).bind Json.bool? = _
    rw [hnone _ (by decide)]; rfl

/-! ## The schema of the body -/

/-- The parameters of an operation that are a body as a whole. -/
def bodies (root item op : List (String × Json)) : List Json :=
  (bodyParameters root item op).filter isBody

/-- The fields of the form of an operation. -/
def form (root item op : List (String × Json)) : List (String × Json) :=
  formEntries ((bodyParameters root item op).filter isForm)

/-- The schema of a body; one without a schema allows everything. -/
def schemaOfBody (param : Json) : Json := (param.get? "schema").getD (.obj [])

/-- The body of an operation as the older dialect has it: its parameters resolve, a
    schema is an object, and no field of a form has the name of a flag. -/
structure OldBody (root item op : List (String × Json)) : Prop where
  shared : ParametersResolve root item
  own : ParametersResolve root op
  requestBody : Fields.get? "requestBody" op = none
  schema : ∀ param ∈ bodies root item op, (schemaOfBody param).fields?.isSome
  names : "x-nullable" ∉ Fields.keys (form root item op)

instance (root item op : List (String × Json)) : Decidable (OldBody root item op) :=
  decidable_of_iff (ParametersResolve root item ∧ ParametersResolve root op ∧
      Fields.get? "requestBody" op = none ∧
      (∀ param ∈ bodies root item op, (schemaOfBody param).fields?.isSome) ∧
      "x-nullable" ∉ Fields.keys (form root item op))
    ⟨fun h => ⟨h.1, h.2.1, h.2.2.1, h.2.2.2.1, h.2.2.2.2⟩,
      fun h => ⟨h.shared, h.own, h.requestBody, h.schema, h.names⟩⟩

theorem bodySchemaOf?_bodyOf (components : List (String × Json)) (param : Json) :
    bodySchemaOf? (Bundle.inline components (move (bodyOf param))) =
      Schema.ofJson? (move (schemaOfBody param)) := by
  set fields := description param ++
    [("content", content "application/json" (schemaOfBody param))] ++
    if isRequired param then [("required", .bool true)] else [] with hfields
  have hbody : bodyOf param = .obj fields := rfl
  have hget : ∀ k, k ≠ "description" → k ≠ "required" → Fields.get? k fields =
      if k = "content" then some (content "application/json" (schemaOfBody param)) else none := by
    intro k hdescription hrequired
    rw [hfields, Fields.get?_append, Fields.get?_append, description, get?_optional,
      if_neg hdescription, Option.none_or, Fields.get?_cons]
    by_cases hk : k = "content"
    · simp [hk]
    · rw [if_neg hk, if_neg (Ne.symm hk)]
      split_ifs <;> simp [hrequired, Fields.get?_cons, Ne.symm]
  rw [hbody]
  refine bodySchemaOf?_move ?_ ?_ (by decide) (hget _ (by decide) (by decide))
  · rw [← Fields.get?_eq_none_iff, hget _ (by decide) (by decide)]; rfl
  · rw [← Fields.get?_eq_none_iff, hget _ (by decide) (by decide)]; rfl

section
variable (hop : (Fields.keys op).Nodup) (h : OldBody root item op)
include hop h

theorem bodySchema?_of_body (hlast : (bodies root item op).getLast? = some param) :
    (viewOperation root item op).bodySchema? = Schema.ofJson? (move (schemaOfBody param)) := by
  obtain ⟨hbody, -⟩ := operationInputs_eq h.shared h.own
  rw [bodySchema?_viewOperation hop, hbody, ← bodies, hlast]
  exact bodySchemaOf?_bodyOf _ param

theorem bodySchema?_of_form (hbodies : bodies root item op = [])
    (hnd : (Fields.keys (form root item op)).Nodup) :
    (viewOperation root item op).bodySchema? =
      if form root item op = [] then none else some (formNode (form root item op)) := by
  obtain ⟨hbody, hform⟩ := operationInputs_eq h.shared h.own
  rw [foldl_add_empty, ← form] at hform
  have hproperties := properties_formOf hnd
  rw [bodySchema?_viewOperation hop, hbody, ← bodies, hbodies, h.requestBody, Option.or_none, hform]
  show ((formOf (form root item op)).body?).bind _ = _
  split_ifs with hempty
  · rw [hempty] at hproperties ⊢
    rw [Form.body?, hproperties]
    rfl
  · have hne : (formOf (form root item op)).properties ≠ [] := by
      rw [hproperties]
      simpa [Fields.mapValues] using hempty
    rw [body?_form hne, Option.bind_some, bodySchemaOf?_move (by simp) (by simp) (formMedia_ne _) rfl,
      move_obj, Schema.ofJson?_obj, ofFields_form hnd h.names]

end

/-! ## The body of an operation -/

/-- A form is described in place, under the first free name. -/
theorem make_formNode (taken : List String) (id : String) {entries : List (String × Json)}
    (hne : entries ≠ []) :
    ∃ name, Naming.IsFirstFree taken (Naming.capitalize id ++ "Body") name ∧
      Slot.shape taken (Slot.of? id "Body" (some (formNode entries))) = some (.named name) ∧
      Slot.make taken (Slot.of? id "Body" (some (formNode entries))) =
        some ((formNode entries).record name) := by
  have hinline : (⟨Naming.capitalize id ++ "Body", formNode entries⟩ : Slot).isInline = true := by
    rw [Slot.isInline_iff]
    refine ⟨?_, rfl⟩
    simpa [Schema.hasProperties, formNode, Fields.mapValues] using hne
  have hslot : Slot.of? id "Body" (some (formNode entries)) =
      some ⟨Naming.capitalize id ++ "Body", formNode entries⟩ := rfl
  refine ⟨_, Naming.freeName_isFirstFree taken (Naming.capitalize id ++ "Body"), ?_, ?_⟩
  · rw [hslot, Slot.shape, Slot.make_of_inline hinline]
    rfl
  · rw [hslot, Slot.make_of_inline hinline]

/-- **The body of an old operation.**  The last body counts, with its schema moved.
    Without one, a form is a schema of its own, whose properties are the fields in
    order.  Without either, there is no body. -/
theorem body_of_source {path : String} {m : Method} (h : OldOperation root path m item op)
    (hbody : OldBody root item op) (origin : String) :
    ∃ document record, (Json.obj root).document? origin = some document ∧
      document.digest.operationAt? path m = some record ∧
      (∀ param, (bodies root item op).getLast? = some param →
        ∃ node, Schema.ofJson? (move (schemaOfBody param)) = some node ∧
          record.body = document.bodyShape path m record.id (some node)) ∧
      (bodies root item op = [] → form root item op ≠ [] →
        (Fields.keys (form root item op)).Nodup →
        ∃ name, Naming.IsFirstFree (document.takenAt path m)
            (Naming.capitalize record.id ++ "Body") name ∧
          record.body = some (.named name) ∧
          document.digest.schema? name = some ((formNode (form root item op)).record name) ∧
          (formNode (form root item op)).propertyRecords.map
              (fun property => (property.name, property.type, property.required)) =
            (form root item op).map fun entry => (entry.1, fieldType entry.2, isRequired entry.2)) ∧
      (bodies root item op = [] → form root item op = [] → record.body = none) := by
  obtain ⟨record, hrecord, heq, hmade⟩ := h.record_at
  have hshape := congrArg OperationRecord.body heq
  rw [Visit.body_record] at hshape
  have hnd := h.distinct_op.keys
  refine ⟨_, record, h.document?_eq origin, hrecord, fun param hlast => ?_,
    fun hbodies hne hnames => ?_, fun hbodies hempty => ?_⟩
  · obtain ⟨fields, hfields⟩ := Option.isSome_iff_exists.1
      (hbody.schema param (List.mem_of_getLast? hlast))
    have hobject := Json.eq_obj_of_fields? hfields
    rw [bodySchema?_of_body hnd hbody hlast, hobject, move_obj, Schema.ofJson?_obj] at hshape
    exact ⟨_, by rw [hobject, move_obj, Schema.ofJson?_obj], hshape⟩
  · have hschema := bodySchema?_of_form hnd hbody hbodies hnames
    rw [if_neg hne] at hschema
    obtain ⟨name, hfree, hnamed, hmake⟩ := make_formNode ((viewDocument root).takenAt path m)
      record.id hne
    rw [hschema] at hshape
    refine ⟨name, hfree, hshape.trans hnamed, ?_, propertyRecords_formNode hnames⟩
    have hmem : (formNode (form root item op)).record name ∈
        (viewDocument root).digest.schemas := by
      refine hmade (List.mem_append_left _ ?_)
      rw [viewVisit_operation, Operation.bodySlot?, hschema, hmake]
      exact List.mem_singleton_self _
    exact find?_key_of_nodup SchemaRecord.name (viewDocument root).nodup_schemaNames _ hmem
  · have hschema := bodySchema?_of_form hnd hbody hbodies (by rw [hempty]; exact List.nodup_nil)
    rw [hschema, if_pos hempty] at hshape
    exact hshape

/-- An operation with a form, one field of which is that of its path. -/
def uploadPost : List (String × Json) := [("parameters", .arr [
  .obj [("name", .str "file"), ("in", .str "formData"), ("type", .str "file")]])]

/-- The path item of that operation. -/
def uploadItem : List (String × Json) := [
  ("parameters", .arr [.obj [("$ref", .str "#/parameters/title")]]),
  ("post", .obj uploadPost)]

/-- A document with that path item. -/
def uploads : List (String × Json) := [
  ("swagger", .str "2.0"),
  ("parameters", .obj [("title", .obj [("name", .str "title"), ("in", .str "formData"),
    ("type", .str "integer"), ("required", .bool true)])]),
  ("paths", .obj [("/files", .obj uploadItem)])]

theorem body_of_source_uploads :
    OldOperation uploads "/files" .post uploadItem uploadPost ∧
      OldBody uploads uploadItem uploadPost ∧
      bodies uploads uploadItem uploadPost = [] ∧
      Fields.keys (form uploads uploadItem uploadPost) = ["title", "file"] ∧
      ∃ document record name schema, (Json.obj uploads).document? "uploads.json" = some document ∧
        document.digest.operationAt? "/files" .post = some record ∧
        record.body = some (.named name) ∧ document.digest.schema? name = some schema ∧
        schema.properties.map (fun property => (property.name, property.type, property.required)) =
          [("title", .base .number, true), ("file", .base .string, false)] := by
  have huploads : OldOperation uploads "/files" .post uploadItem uploadPost :=
    ⟨⟨by decide +kernel, by decide +kernel, by decide +kernel⟩, rfl, rfl⟩
  have hbody : OldBody uploads uploadItem uploadPost := by decide +kernel
  have hbodies : bodies uploads uploadItem uploadPost = [] := by
    rw [← List.isEmpty_iff]
    decide +kernel
  have hkeys : Fields.keys (form uploads uploadItem uploadPost) = ["title", "file"] := by
    decide +kernel
  have hne : form uploads uploadItem uploadPost ≠ [] := fun hempty => by
    rw [hempty] at hkeys
    cases hkeys
  obtain ⟨document, record, hdocument, hrecord, -, hform, -⟩ :=
    body_of_source huploads hbody "uploads.json"
  obtain ⟨name, -, hnamed, hschema, hproperties⟩ := hform hbodies hne (by rw [hkeys]; decide)
  exact ⟨huploads, hbody, hbodies, hkeys, document, record, name, _, hdocument, hrecord, hnamed,
    hschema, hproperties.trans (by decide +kernel)⟩

end ApiDigest.Upgrade
