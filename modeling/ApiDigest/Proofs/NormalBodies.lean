/-
  The bodies and responses of an old operation, viewed.

  What matters of a body or a response is the schema that is selected from its
  content.  An old document has one schema there, so that it does not matter under
  which media type it stands.

  * `selectSchema_of_single`: of a single schema, it is selected;
  * `Upgrade.bodySchemaOf?` and `Upgrade.responseSchemaOf?` are what is selected
    from a value;
  * `Upgrade.bodySchema?_viewOperation` and `Upgrade.responseSchema?_viewOperation`
    say what is selected for an operation, in terms of the source.
-/
import ApiDigest.Proofs.NormalView
import ApiDigest.Proofs.ViewedNodes

namespace ApiDigest

/-- A single schema is selected under every media type. -/
theorem selectSchema_of_single {content : Table MediaType} {media : String} {schema : Option Schema}
    (h : content.entries = [(media, ⟨schema⟩)]) : selectSchema content = schema := by
  have hget : content.get? "application/json" =
      if media = "application/json" then some ⟨schema⟩ else none := by
    rw [Table.get?, h, Fields.get?_cons]
    rfl
  rw [selectSchema, hget, h]
  cases schema with
  | none => split_ifs <;> simp
  | some schema =>
    split_ifs with hjson
    · rfl
    · by_cases hends : Text.endsWith "+json" media = true <;> simp [hends]

theorem bind_eq_join_map {α β : Type} (value : Option α) (f : α → Option β) :
    value.bind f = (value.map f).join := by
  cases value <;> rfl

theorem findSome?_congr {α β : Type} {f g : α → Option β} : ∀ {l : List α}, (∀ a ∈ l, f a = g a) →
    l.findSome? f = l.findSome? g
  | [], _ => rfl
  | a :: l, h => by
    obtain ⟨ha, hl⟩ := List.forall_mem_cons.1 h
    rw [List.findSome?_cons, List.findSome?_cons, ha, findSome?_congr hl]

namespace Upgrade

/-! ## Content -/

/-- The schema that is selected from a body. -/
def bodySchemaOf? (value : Json) : Option Schema :=
  (Body.ofJson? value).bind fun body => selectSchema body.content

/-- The schema that is selected from a response, if it is one at all. -/
def responseSchemaOf? (value : Json) : Option (Option Schema) :=
  (Response.ofJson? value).map fun response => selectSchema response.content

variable {fields components root item op : List (String × Json)} {media : String} {schema : Json}

/-- The one schema of a content is selected. -/
theorem selectSchema_content (hmedia : media ≠ "x-nullable")
    (h : Fields.get? "content" fields = some (move (content media schema))) :
    selectSchema (Fields.readTable "content" MediaType.ofJson? fields) =
      Schema.ofJson? (move schema) := by
  have hcontent : move (content media schema) =
      .obj [(media, .obj [("schema", move schema)])] := by
    have hinner : move (.obj [("schema", schema)]) = .obj [("schema", move schema)] := by
      rw [move_obj, moveObject_of_notMem (by simp), moveFields, moveFields, Fields.update,
        if_neg (by decide), Fields.update]
    rw [content, move_obj, moveObject_of_objects (by simpa using hmedia.symm)
      (by simp [Json.fields?])]
    exact congrArg (fun value => Json.obj [(media, value)]) hinner
  refine @selectSchema_of_single _ media _ ?_
  rw [Fields.readTable, h, hcontent]
  rfl

theorem bodySchemaOf?_move (hx : "x-nullable" ∉ Fields.keys fields)
    (href : "$ref" ∉ Fields.keys fields) (hmedia : media ≠ "x-nullable")
    (h : Fields.get? "content" fields = some (content media schema)) :
    bodySchemaOf? (Bundle.inline components (move (.obj fields))) =
      Schema.ofJson? (move schema) := by
  have hget : Fields.get? "content" (moveObject (moveFields fields)) =
      some (move (content media schema)) := by
    rw [get?_moveObject_of_notMem hx, h, Option.map_some, moveAt_of_ne (by decide)]
  rw [inline_move_of_isPlain (isPlain_obj_iff.2 href), move_obj]
  exact selectSchema_content hmedia hget

/-! ## Responses -/

/-- The media type of responses is no key of a flag. -/
theorem responseMediaType_ne (produces : List String) :
    responseMediaType produces ≠ "x-nullable" := by
  unfold responseMediaType
  cases hjson : produces.find? fun media =>
      media = "application/json" || Text.endsWith "+json" media with
  | some media =>
    rintro rfl
    exact absurd (List.find?_some hjson) (by decide)
  | none =>
    cases hinside : produces.find? fun media => Text.hasInside "json".toList media.toList with
    | some media =>
      rintro rfl
      exact absurd (List.find?_some hinside) (by decide)
    | none => decide

/-- A response in place, upgraded and moved. -/
theorem exists_move_response (produces : List String) (hnd : (Fields.keys fields).Nodup)
    (href : "$ref" ∉ Fields.keys fields) :
    ∃ moved, move (response produces (.obj fields)) = .obj moved ∧
      "$ref" ∉ Fields.keys moved ∧
      ∀ k, k ≠ "x-nullable" → k ≠ "nullable" →
        Fields.get? k moved = (responseAt produces fields k).map (moveAt k) := by
  obtain ⟨out, hout, hndOut, hget⟩ := get?_response produces hnd href
  have hmoved : ∀ k, k ≠ "x-nullable" → k ≠ "nullable" →
      Fields.get? k (moveObject (moveFields out)) =
        (responseAt produces fields k).map (moveAt k) := by
    intro k hx hn
    rw [get?_moveObject hndOut hx hn, hget]
  refine ⟨_, by rw [hout, move_obj], ?_, hmoved⟩
  rw [← Fields.get?_eq_none_iff, hmoved _ (by decide) (by decide), responseAt]
  simp [Fields.get?_eq_none_iff.2 href]

/-- **A reusable response in the normal shape.** -/
theorem get?_normalResponses (hx : "x-nullable" ∉ Fields.keys (objectAt "responses" root))
    (name : String) :
    (Fields.get? "responses" (normalComponents root)).bind (Json.get? name) =
      (Fields.get? name (objectAt "responses" root)).map fun value =>
        moveAt name (response (texts "produces" root) value) := by
  rw [get?_normalComponents, componentsAt, if_neg (by decide), if_neg (by decide), if_pos rfl]
  unfold objectAt at hx ⊢
  generalize (Fields.get? "responses" root).bind Json.fields? = table at hx ⊢
  cases table with
  | none => rfl
  | some entries =>
    have hx' : "x-nullable" ∉
        Fields.keys (Fields.mapValues (response (texts "produces" root)) entries) := by
      rw [Fields.keys_mapValues]
      exact hx
    rw [Option.map_some, Option.map_some, moveAt_obj, move_obj, Option.bind_some, Json.get?_obj,
      get?_moveObject_of_notMem hx', Fields.get?_mapValues, Option.map_map]
    rfl

/-- The schema of a response is selected, whatever its media type. -/
theorem selectSchema_response {produces : List String} {moved : List (String × Json)}
    (hmoved : Fields.get? "content" moved =
      (responseAt produces fields "content").map (moveAt "content"))
    (hschema : Fields.get? "schema" fields = some schema) :
    selectSchema (Fields.readTable "content" MediaType.ofJson? moved) =
      Schema.ofJson? (move schema) := by
  refine selectSchema_content (responseMediaType_ne produces) ?_
  rw [hmoved, map_moveAt (by decide), responseAt, if_pos rfl, hschema]
  rfl

/-! ## Operations -/

/-- **The schema that is selected for the body of an operation.** -/
theorem bodySchema?_viewOperation (hnd : (Fields.keys op).Nodup) :
    (viewOperation root item op).bodySchema? =
      (((operationInputs root item op).body.or (operationInputs root item op).form.body?).or
        (Fields.get? "requestBody" op)).bind fun value =>
          bodySchemaOf? (Bundle.inline (normalComponents root) (move value)) := by
  rw [Operation.bodySchema?, viewOperation_body, Fields.read, get?_normalOperation_requestBody hnd,
    Option.bind_map, Option.bind_assoc]
  rfl

/-- The responses of an operation, from the source. -/
def sourceResponse (root op : List (String × Json)) (status : String) : Option Json :=
  (Fields.get? status (objectAt "responses" op)).map fun value =>
    Bundle.inline (normalComponents root)
      (move (response (producesOf (texts "produces" root) op) value))

theorem get?_responses_viewOperation (hop : (Json.obj op).DistinctKeys) {status : String}
    (hstatus : status ∈ successStatuses) :
    (viewOperation root item op).responses.get? status =
      (sourceResponse root op status).bind Response.ofJson? := by
  have hne : status ≠ "x-nullable" ∧ status ≠ "nullable" ∧ status ≠ "$ref" := by
    simp only [successStatuses, List.mem_cons, List.not_mem_nil, or_false] at hstatus
    rcases hstatus with rfl | rfl | rfl <;> decide
  set upgraded := Fields.mapValues (response (producesOf (texts "produces" root) op))
    (objectAt "responses" op) with hupgraded
  have hndUpgraded : (Fields.keys upgraded).Nodup := by
    rw [hupgraded, Fields.keys_mapValues]
    exact (distinctKeys_objectAt hop "responses").keys
  have hndInlined : (Fields.keys (Fields.mapValues (Bundle.inline (normalComponents root))
      (moveObject (moveFields upgraded)))).Nodup := by
    rw [Fields.keys_mapValues]
    exact nodup_keys_moveObject hndUpgraded
  have hresponses : (viewOperation root item op).responses =
      Table.ofList (Fields.filterMapValues Response.ofJson?
        (Fields.mapValues (Bundle.inline (normalComponents root))
          (moveObject (moveFields upgraded)))) := by
    rw [viewOperation_responses, Fields.readTable, get?_normalOperation_responses hop.keys,
      hupgraded, objectAt]
    cases (Fields.get? "responses" op).bind Json.fields? <;> rfl
  rw [hresponses, Table.get?_ofList (hndInlined.sublist (Fields.keys_filterMapValues_sublist _ _)),
    Fields.get?_filterMapValues _ hndInlined, Fields.get?_mapValues,
    get?_moveObject hndUpgraded hne.1 hne.2.1, hupgraded, Fields.get?_mapValues, sourceResponse,
    map_moveAt hne.2.2, Option.map_map, Option.map_map]
  rfl

/-- **The schema that is selected for the response of an operation**: that of the first
    successful one. -/
theorem responseSchema?_viewOperation (hop : (Json.obj op).DistinctKeys) :
    (viewOperation root item op).responseSchema? = (successStatuses.findSome? fun status =>
      (sourceResponse root op status).bind responseSchemaOf?).join := by
  have hstatus : ∀ status ∈ successStatuses,
      ((viewOperation root item op).responses.get? status).map
          (fun response => selectSchema response.content) =
        (sourceResponse root op status).bind responseSchemaOf? := by
    intro status hmem
    rw [get?_responses_viewOperation hop hmem, Option.map_bind]
    rfl
  rw [Operation.responseSchema?, bind_eq_join_map, List.map_findSome?]
  exact congrArg Option.join (findSome?_congr hstatus)

end Upgrade
end ApiDigest
