/-
  The response of an old operation.

  The schema of a response stands in the response itself, in place or behind a
  pointer to a reusable one.  The media types of the document and of the operation
  say nothing about it.

  * `Upgrade.oldResponseSchema?` is the schema of the first successful response;
  * `Upgrade.response_of_source`: the response of an operation's record, and that the
    digest does not depend on media types and servers.
-/
import ApiDigest.Proofs.MediaTypes

namespace ApiDigest.Upgrade

variable {root item op fields : List (String × Json)} {value : Json}

/-! ## Selected schemas -/

/-- The response that is meant: the one in place, or the reusable one that is pointed
    at. -/
def meantResponse (root : List (String × Json)) : Json → Json :=
  deref "#/responses/" (objectAt "responses" root)

/-- The schema of the first successful response of an operation. -/
def oldResponseSchema? (root op : List (String × Json)) : Option Json :=
  (successStatuses.findSome? fun status => Fields.get? status (objectAt "responses" op)).bind
    fun value => (meantResponse root value).get? "schema"

/-- The schema that is selected for a response without a content of its own. -/
theorem exists_selected_response (produces : List String) (hnd : (Fields.keys fields).Nodup)
    (href : "$ref" ∉ Fields.keys fields) (hcontent : Fields.get? "content" fields = none) :
    ∃ moved, move (response produces (.obj fields)) = .obj moved ∧
      (Json.obj moved).text? "$ref" = none ∧
      responseSchemaOf? (.obj moved) =
        some ((Fields.get? "schema" fields).bind fun schema => Schema.ofJson? (move schema)) := by
  obtain ⟨moved, hmoved, hrefMoved, hget⟩ := exists_move_response produces hnd href
  have hat := hget "content" (by decide) (by decide)
  refine ⟨moved, hmoved, ?_, congrArg some ?_⟩
  · exact Json.text?_eq_none hrefMoved
  · show selectSchema (Fields.readTable "content" MediaType.ofJson? moved) = _
    cases hschema : Fields.get? "schema" fields with
    | some schema => exact selectSchema_response hat hschema
    | none =>
      rw [responseAt, if_pos rfl, hschema, hcontent] at hat
      rw [Fields.readTable, hat]
      rfl

/-- **A response comes to the one that is meant**, whatever the media types. -/
theorem responseSchemaOf?_inline (h : OldDocument root) (produces : List String)
    (hvalue : value.DistinctKeys)
    (hresolve : Resolves "#/responses/" (objectAt "responses" root) value)
    (hcontent : (meantResponse root value).get? "content" = none) :
    responseSchemaOf? (Bundle.inline (normalComponents root) (move (response produces value))) =
      some (((meantResponse root value).get? "schema").bind fun schema =>
        Schema.ofJson? (move schema)) := by
  rw [meantResponse] at hcontent ⊢
  rcases hresolve with hplain | ⟨name, hname, htilde, target, htarget, hplain⟩
  · rw [deref_of_isPlain hplain] at hcontent ⊢
    obtain ⟨fields, rfl, href⟩ := hplain.exists_obj
    obtain ⟨moved, hmoved, htext, hselected⟩ :=
      exists_selected_response produces hvalue.keys href hcontent
    rw [hmoved, Bundle.inline_of_pointerless (Bundle.target?_of_text? htext), hselected]
    rfl
  · rw [deref_of_soleName? hname htarget] at hcontent ⊢
    obtain ⟨fields, rfl, href⟩ := hplain.exists_obj
    have htargetKeys := (distinctKeys_objectAt h.distinct "responses").field
      (Fields.mem_of_get? htarget)
    obtain ⟨moved, hmoved, htext, hselected⟩ :=
      exists_selected_response (texts "produces" root) htargetKeys.keys href hcontent
    have hpointer : response produces value = value := by
      rw [eq_of_soleName? hname]; rfl
    have htable : (Fields.get? "responses" (normalComponents root)).bind (Json.get? name) =
        some (.obj moved) := by
      rw [get?_normalResponses (lacks_objectAt h.flagless "responses").keys,
        Option.mem_def.1 htarget, Option.map_some, moveAt, hmoved]
      split_ifs <;> rfl
    rw [hpointer, inline_move_of_soleName? (movePointer_responses name) (by decide) hname htilde
      htable htext, hselected]
    rfl

/-! ## The response of an operation -/

/-- The responses of an operation as the older dialect has them: each of them resolves,
    to one without a content, and a schema is an object. -/
structure OldResponses (root op : List (String × Json)) : Prop where
  resolve : ∀ field ∈ objectAt "responses" op,
    Resolves "#/responses/" (objectAt "responses" root) field.2
  contentless : ∀ field ∈ objectAt "responses" op,
    (meantResponse root field.2).get? "content" = none
  schema : ∀ field ∈ objectAt "responses" op, ∀ schema ∈ (meantResponse root field.2).get? "schema",
    schema.fields?.isSome

instance (root op : List (String × Json)) : Decidable (OldResponses root op) :=
  decidable_of_iff ((∀ field ∈ objectAt "responses" op,
      Resolves "#/responses/" (objectAt "responses" root) field.2) ∧
      (∀ field ∈ objectAt "responses" op, (meantResponse root field.2).get? "content" = none) ∧
      ∀ field ∈ objectAt "responses" op, ∀ schema ∈ (meantResponse root field.2).get? "schema",
        schema.fields?.isSome)
    ⟨fun h => ⟨h.1, h.2.1, h.2.2⟩, fun h => ⟨h.resolve, h.contentless, h.schema⟩⟩

theorem responseSchema?_of_source (h : OldDocument root) (hop : (Json.obj op).DistinctKeys)
    (hresponses : OldResponses root op) :
    (viewOperation root item op).responseSchema? =
      (oldResponseSchema? root op).bind fun schema => Schema.ofJson? (move schema) := by
  have hstatus : ∀ status ∈ successStatuses,
      (sourceResponse root op status).bind responseSchemaOf? =
        (Fields.get? status (objectAt "responses" op)).map fun value =>
          ((meantResponse root value).get? "schema").bind fun schema =>
            Schema.ofJson? (move schema) := by
    intro status _
    rw [sourceResponse]
    cases hget : Fields.get? status (objectAt "responses" op) with
    | none => rfl
    | some value =>
      have hmem := Fields.mem_of_get? hget
      exact responseSchemaOf?_inline h _ ((distinctKeys_objectAt hop "responses").field hmem)
        (hresponses.resolve _ hmem) (hresponses.contentless _ hmem)
  rw [responseSchema?_viewOperation hop, findSome?_congr hstatus, oldResponseSchema?,
    Option.bind_assoc, bind_eq_join_map, List.map_findSome?]
  rfl

/-- **The responses of an old document.**  The first successful response of an operation
    counts, with its schema moved.  Whatever the media types, servers and schemes of a
    document are, its digest is the same. -/
theorem response_of_source (h : OldDocument root) (origin : String) :
    (∀ path m item op, OldOperation root path m item op → OldResponses root op →
      ∃ document record, (Json.obj root).document? origin = some document ∧
        document.digest.operationAt? path m = some record ∧
        (∀ schema, oldResponseSchema? root op = some schema →
          ∃ node, Schema.ofJson? (move schema) = some node ∧
            record.response = document.responseShape path m record.id (some node)) ∧
        (oldResponseSchema? root op = none → record.response = none)) ∧
      ∀ other, (Json.obj other).DistinctKeys → bare other = bare root →
        ((Json.obj other).document? origin).map Document.digest =
          ((Json.obj root).document? origin).map Document.digest := by
  refine ⟨fun path m item op hop hresponses => ?_,
    fun other hother heq => digest_of_bare_eq h hother heq origin⟩
  obtain ⟨record, hrecord, heq, -⟩ := hop.record_at
  have hshape := congrArg OperationRecord.response heq
  rw [Visit.response_record, responseSchema?_of_source h hop.distinct_op hresponses] at hshape
  refine ⟨_, record, h.document?_eq origin, hrecord, fun schema hschema => ?_, fun hnone => ?_⟩
  · obtain ⟨value, hvalue, hat⟩ := Option.bind_eq_some_iff.1 hschema
    obtain ⟨status, -, hget⟩ := List.exists_of_findSome?_eq_some hvalue
    obtain ⟨fields, hfields⟩ := Option.isSome_iff_exists.1
      (hresponses.schema _ (Fields.mem_of_get? hget) schema hat)
    have hobject := Json.eq_obj_of_fields? hfields
    have hnode : Schema.ofJson? (move schema) =
        some (Schema.ofFields (moveObject (moveFields fields))) := by
      rw [hobject, move_obj, Schema.ofJson?_obj]
    rw [hschema, Option.bind_some, hnode] at hshape
    exact ⟨_, hnode, hshape⟩
  · rw [hnone] at hshape
    exact hshape

/-- An operation whose response is reusable, with media types of its own. -/
def reportGet : List (String × Json) := [
  ("produces", .arr [.str "text/csv"]),
  ("responses", .obj [("200", .obj [("$ref", .str "#/responses/report")])])]

/-- A document with that operation. -/
def reports : List (String × Json) := [
  ("swagger", .str "2.0"), ("produces", .arr [.str "application/xml"]),
  ("responses", .obj [("report", .obj [("schema", .obj [("$ref", .str "#/definitions/Report")])])]),
  ("definitions", .obj [("Report", .obj [])]),
  ("paths", .obj [("/report", .obj [("get", .obj reportGet)])])]

/-- The same document on a server, without media types. -/
def servedReports : List (String × Json) := [
  ("swagger", .str "2.0"), ("host", .str "reports.test"),
  ("responses", .obj [("report", .obj [("schema", .obj [("$ref", .str "#/definitions/Report")])])]),
  ("definitions", .obj [("Report", .obj [])]),
  ("paths", .obj [("/report", .obj [("get", .obj [
    ("responses", .obj [("200", .obj [("$ref", .str "#/responses/report")])])])])])]

theorem response_of_source_reports :
    OldDocument reports ∧
      OldOperation reports "/report" .get [("get", .obj reportGet)] reportGet ∧
      OldResponses reports reportGet ∧
      oldResponseSchema? reports reportGet =
        some (.obj [("$ref", .str "#/definitions/Report")]) ∧
      (Json.obj servedReports).DistinctKeys ∧ bare servedReports = bare reports ∧
      (∃ document record, (Json.obj reports).document? "reports.json" = some document ∧
        document.digest.operationAt? "/report" .get = some record ∧
        record.response = some (.named "Report")) ∧
      ((Json.obj servedReports).document? "reports.json").map Document.digest =
        ((Json.obj reports).document? "reports.json").map Document.digest := by
  have hreports : OldDocument reports := ⟨by decide +kernel, by decide +kernel, by decide +kernel⟩
  have hget : OldOperation reports "/report" .get [("get", .obj reportGet)] reportGet :=
    ⟨hreports, rfl, rfl⟩
  have hresponses : OldResponses reports reportGet := by decide +kernel
  have hserved : (Json.obj servedReports).DistinctKeys := by decide +kernel
  have hschema : oldResponseSchema? reports reportGet =
      some (.obj [("$ref", .str "#/definitions/Report")]) := rfl
  obtain ⟨hresponse, hdigest⟩ := response_of_source hreports "reports.json"
  obtain ⟨document, record, hdocument, hrecord, hsome, -⟩ :=
    hresponse "/report" .get _ reportGet hget hresponses
  obtain ⟨node, hnode, hshape⟩ := hsome _ hschema
  obtain rfl := Option.some.inj hnode
  -- the node points at a schema of the table, so no name that is taken matters
  have hreport : record.response = some (.named "Report") := hshape.trans rfl
  exact ⟨hreports, hget, hresponses, hschema, hserved, rfl,
    ⟨document, record, hdocument, hrecord, hreport⟩, hdigest servedReports hserved rfl⟩

end ApiDigest.Upgrade
