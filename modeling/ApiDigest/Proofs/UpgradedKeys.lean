/-
  Upgraded documents have distinct keys.

  Parts of a document are put together from parts of the source, each under a key of its
  own, so no object gets a key twice while a document is brought over.

  * `Json.distinctKeys_of_get?` shows it of an object by what its keys hold;
  * `Upgrade.distinctKeys_parameter`, `Upgrade.distinctKeys_response`,
    `Upgrade.distinctKeys_operation` and `Upgrade.distinctKeys_pathItem` are the parts;
  * `Upgrade.distinctKeys_document` is the document, with pointers as they were.
-/
import ApiDigest.Proofs.NormalView

namespace ApiDigest

/-! ## Objects -/

section
variable {fields : List (String × Json)}

theorem Json.distinctKeys_of_get? (hnd : (Fields.keys fields).Nodup)
    (h : ∀ k value, Fields.get? k fields = some value → value.DistinctKeys) :
    (Json.obj fields).DistinctKeys :=
  Json.distinctKeys_obj_iff.2 ⟨hnd, fun field hmem =>
    h field.1 field.2 (Fields.get?_of_mem hnd hmem)⟩

theorem Json.distinctKeys_str (text : String) : (Json.str text).DistinctKeys :=
  distinctKeys_of_objects rfl

theorem Json.distinctKeys_bool (b : Bool) : (Json.bool b).DistinctKeys :=
  distinctKeys_of_objects rfl

/-- Values that are changed keep their keys. -/
theorem Json.DistinctKeys.mapValues {f : Json → Json}
    (hf : ∀ value, value.DistinctKeys → (f value).DistinctKeys)
    (h : (Json.obj fields).DistinctKeys) :
    (Json.obj (Fields.mapValues f fields)).DistinctKeys := by
  refine distinctKeys_obj_iff.2 ⟨by rw [Fields.keys_mapValues]; exact h.keys, fun part hpart => ?_⟩
  obtain ⟨field, hfield, rfl⟩ := List.mem_map.1 hpart
  exact hf _ (h.field hfield)

end

namespace Upgrade

variable {fields table : List (String × Json)} {param value : Json} {params : List Json}

/-! ## Chosen fields -/

theorem keys_select_sublist (keys : List String) (fields : List (String × Json)) :
    (Fields.keys (select keys fields)).Sublist keys := by
  rw [select]
  induction keys with
  | nil => exact List.Sublist.slnil
  | cons key keys ih =>
    cases hvalue : Fields.get? key fields with
    | none => rw [List.filterMap_cons_none (by simp [hvalue])]; exact ih.cons key
    | some value =>
      rw [List.filterMap_cons_some (by simp [hvalue]; rfl), Fields.keys_cons]
      exact ih.cons_cons key

theorem distinctKeys_select {keys : List String} (hkeys : keys.Nodup)
    (h : (Json.obj fields).DistinctKeys) : (Json.obj (select keys fields)).DistinctKeys := by
  refine Json.distinctKeys_of_get? (hkeys.sublist (keys_select_sublist keys fields)) ?_
  intro k value hget
  rw [get?_select] at hget
  split_ifs at hget
  exact h.field (Fields.mem_of_get? hget)

theorem keys_optional_sublist (key : String) (value : Option Json) :
    (Fields.keys (value.map fun value => (key, value)).toList).Sublist [key] := by
  cases value <;> simp

/-! ## Parameters and bodies -/

theorem distinctKeys_parameter (h : param.DistinctKeys) : (parameter param).DistinctKeys := by
  cases param with
  | obj fields =>
    by_cases href : "$ref" ∈ Fields.keys fields
    · rwa [parameter, if_pos (Fields.contains_iff.2 href)]
    · obtain ⟨out, hout, hnd, hget⟩ := get?_parameter h.keys href
      rw [hout]
      refine Json.distinctKeys_of_get? hnd fun k value hvalue => ?_
      rw [hget, parameterAt] at hvalue
      split_ifs at hvalue
      · exact Option.some.inj hvalue ▸ Json.distinctKeys_bool true
      · exact Option.some.inj hvalue ▸ distinctKeys_select (by decide) h
      · exact h.field (Fields.mem_of_get? hvalue)
  | _ => exact h

theorem distinctKeys_content (mediaType : String) (h : value.DistinctKeys) :
    (content mediaType value).DistinctKeys := by
  simp [content, Json.distinctKeys_obj_iff, h]

theorem distinctKeys_bodyOf (h : param.DistinctKeys) : (bodyOf param).DistinctKeys := by
  have hschema : ((param.get? "schema").getD (.obj [])).DistinctKeys := by
    cases hget : param.get? "schema" with
    | none => exact (by decide : (Json.obj []).DistinctKeys)
    | some schema => exact h.get? hget
  have hcontent := distinctKeys_content "application/json" hschema
  rw [bodyOf, description]
  cases hget : param.get? "description" with
  | none => cases isRequired param <;>
      simp [Json.distinctKeys_obj_iff, hcontent, Json.distinctKeys_bool]
  | some text => cases isRequired param <;>
      simp [Json.distinctKeys_obj_iff, hcontent, Json.distinctKeys_bool, h.get? hget]

theorem distinctKeys_schemaOf (h : param.DistinctKeys) : (Form.schemaOf param).DistinctKeys := by
  have hdescription : ∀ fields, (Json.obj fields).DistinctKeys →
      "description" ∉ Fields.keys fields →
      (Json.obj (fields ++ description param)).DistinctKeys := by
    intro fields hfields hnotin
    rw [description]
    cases hget : param.get? "description" with
    | none => simpa using hfields
    | some text =>
      show (Json.obj (fields ++ [("description", text)])).DistinctKeys
      rw [← Fields.insert_of_notMem text hnotin]
      exact hfields.insert "description" (h.get? hget)
  rw [Form.schemaOf]
  split_ifs
  · exact hdescription _ (by decide) (by decide)
  · refine hdescription _ ?_ fun hmem => ?_
    · cases param with
      | obj fields => exact distinctKeys_select (by decide) h
      | _ => exact (by decide : (Json.obj (select schemaKeys [])).DistinctKeys)
    · exact absurd ((keys_select_sublist _ _).subset hmem) (by decide)

theorem distinctKeys_foldl_add {form : Form} (hparams : ∀ param ∈ params, param.DistinctKeys)
    (h : (Json.obj form.properties).DistinctKeys) :
    (Json.obj (params.foldl Form.add form).properties).DistinctKeys := by
  induction params generalizing form with
  | nil => exact h
  | cons param rest ih =>
    obtain ⟨hparam, hrest⟩ := List.forall_mem_cons.1 hparams
    refine ih hrest ?_
    rw [Form.add]
    split
    · exact h
    · exact h.insert _ (distinctKeys_schemaOf hparam)

theorem distinctKeys_ofStrings (texts : List String) : (Json.ofStrings texts).DistinctKeys := by
  refine Json.distinctKeys_arr_iff.2 fun item hitem => ?_
  obtain ⟨text, -, rfl⟩ := List.mem_map.1 hitem
  exact Json.distinctKeys_str text

theorem distinctKeys_body? {form : Form} (h : (Json.obj form.properties).DistinctKeys)
    (hbody : form.body? = some value) : value.DistinctKeys := by
  rw [Form.body?] at hbody
  by_cases hempty : form.properties.isEmpty = true
  · rw [if_pos hempty] at hbody; cases hbody
  rw [if_neg hempty] at hbody
  obtain rfl := Option.some.inj hbody
  refine Json.distinctKeys_obj_iff.2 ⟨by simp, List.forall_mem_singleton.2 ?_⟩
  refine distinctKeys_content _ (Json.distinctKeys_obj_iff.2 ⟨?_, ?_⟩)
  · split_ifs <;> simp
  · split_ifs <;> simp [h, Json.distinctKeys_str, distinctKeys_ofStrings]

/-! ## Responses -/

theorem distinctKeys_response (produces : List String) (h : value.DistinctKeys) :
    (response produces value).DistinctKeys := by
  cases value with
  | obj fields =>
    by_cases href : "$ref" ∈ Fields.keys fields
    · rwa [response, if_pos (Fields.contains_iff.2 href)]
    · obtain ⟨out, hout, hnd, hget⟩ := get?_response produces h.keys href
      rw [hout]
      refine Json.distinctKeys_of_get? hnd fun k part hpart => ?_
      rw [hget, responseAt] at hpart
      split_ifs at hpart
      · rcases Option.or_eq_some_iff.1 hpart with hmade | ⟨-, hcontent⟩
        · obtain ⟨schema, hschema, rfl⟩ := Option.map_eq_some_iff.1 hmade
          exact distinctKeys_content _ (h.field (Fields.mem_of_get? hschema))
        · exact h.field (Fields.mem_of_get? hcontent)
      · obtain rfl := Option.some.inj hpart
        cases hget : Fields.get? "description" fields with
        | none => exact Json.distinctKeys_str ""
        | some text => exact h.field (Fields.mem_of_get? hget)
      · exact h.field (Fields.mem_of_get? hpart)
  | _ => exact h

/-! ## Operations and path items -/

theorem distinctKeys_inlineBodyLike (htable : (Json.obj table).DistinctKeys)
    (h : param.DistinctKeys) : (inlineBodyLike table param).DistinctKeys := by
  rw [inlineBodyLike]
  split
  · rename_i target htarget
    obtain ⟨name, -, hget⟩ := Option.bind_eq_some_iff.1 htarget
    split_ifs
    · exact htable.field (Fields.mem_of_get? hget)
    · exact h
  · exact h

theorem distinctKeys_inlined (htable : (Json.obj table).DistinctKeys)
    (h : (Json.obj fields).DistinctKeys) : ∀ param ∈ inlined table fields, param.DistinctKeys := by
  intro param hparam
  obtain ⟨source, hsource, rfl⟩ := List.mem_map.1 hparam
  exact distinctKeys_inlineBodyLike htable (distinctKeys_itemsAt h hsource)

theorem distinctKeys_someItems (h : ∀ item ∈ params, item.DistinctKeys)
    (hsome : someItems params = some value) : value.DistinctKeys := by
  rw [someItems] at hsome
  split_ifs at hsome
  exact Option.some.inj hsome ▸ Json.distinctKeys_arr_iff.2 h

theorem distinctKeys_operation {sharedBody : List Json} (produces : List String)
    (hshared : ∀ param ∈ sharedBody, param.DistinctKeys) (htable : (Json.obj table).DistinctKeys)
    (h : (Json.obj fields).DistinctKeys) :
    (Json.obj (operation sharedBody table produces fields)).DistinctKeys := by
  obtain ⟨hnd, hget⟩ := get?_operation sharedBody table produces h.keys
  have hparams : ∀ param ∈ sharedBody ++ inlined table fields, param.DistinctKeys := fun param =>
    (List.mem_append.1 · |>.elim (hshared param) (distinctKeys_inlined htable h param))
  refine Json.distinctKeys_of_get? hnd fun k value hvalue => ?_
  rw [hget, operationAt, inputsOf, ofList_eq] at hvalue
  dsimp only at hvalue
  split_ifs at hvalue
  · obtain ⟨responses, hresponses, rfl⟩ := Option.map_eq_some_iff.1 hvalue
    exact (h.object hresponses).mapValues fun _ => distinctKeys_response _
  · -- a body, else a form, else what the operation has already
    rcases Option.or_eq_some_iff.1 hvalue with hmade | ⟨-, hkept⟩
    · rcases Option.or_eq_some_iff.1 hmade with hbody | ⟨-, hform⟩
      · obtain ⟨param, hlast, rfl⟩ := Option.map_eq_some_iff.1 hbody
        have hmem := (List.mem_filter.1 (List.mem_of_getLast? hlast)).1
        exact distinctKeys_bodyOf (hparams param hmem)
      · refine distinctKeys_body? (distinctKeys_foldl_add (fun param hparam => ?_) ?_) hform
        · exact hparams param (List.mem_filter.1 hparam).1
        · exact (by decide : (Json.obj []).DistinctKeys)
    · exact h.field (Fields.mem_of_get? hkept)
  · refine distinctKeys_someItems (fun param hparam => ?_) hvalue
    obtain ⟨source, hsource, rfl⟩ := List.mem_map.1 hparam
    exact distinctKeys_parameter (hparams source (List.mem_filter.1 hsource).1)
  · exact h.field (Fields.mem_of_get? hvalue)

theorem distinctKeys_pathItem (produces : List String) (htable : (Json.obj table).DistinctKeys)
    (h : (Json.obj fields).DistinctKeys) :
    (Json.obj (pathItem table produces fields)).DistinctKeys := by
  obtain ⟨hnd, hget⟩ := get?_pathItem table produces h.keys
  have hparams := distinctKeys_inlined htable h
  refine Json.distinctKeys_of_get? hnd fun k value hvalue => ?_
  rw [hget, pathItemAt] at hvalue
  split_ifs at hvalue
  · refine distinctKeys_someItems (fun param hparam => ?_) hvalue
    obtain ⟨source, hsource, rfl⟩ := List.mem_map.1 hparam
    exact distinctKeys_parameter (hparams source (List.mem_filter.1 hsource).1)
  · obtain ⟨op, hop, rfl⟩ := Option.map_eq_some_iff.1 hvalue
    exact distinctKeys_operation produces (fun param hparam =>
      hparams param (List.mem_filter.1 hparam).1) htable (h.object hop)
  · exact h.field (Fields.mem_of_get? hvalue)

/-! ## Documents -/

theorem distinctKeys_servers (root : List (String × Json)) :
    ∀ server ∈ servers root, server.DistinctKeys := by
  intro server hserver
  obtain ⟨url, -, rfl⟩ := List.mem_map.1 hserver
  simp [Json.distinctKeys_obj_iff, Json.distinctKeys_str]

section
variable {root : List (String × Json)} (h : (Json.obj root).DistinctKeys)
include h

theorem distinctKeys_paths : (Json.obj (paths root)).DistinctKeys := by
  have hpaths := distinctKeys_objectAt h "paths"
  refine Json.distinctKeys_of_get?
    (hpaths.keys.sublist (Fields.keys_filterMapValues_sublist _ _)) fun k value hvalue => ?_
  rw [paths, Fields.get?_filterMapValues _ hpaths.keys] at hvalue
  obtain ⟨source, hsource, hitem⟩ := Option.bind_eq_some_iff.1 hvalue
  obtain ⟨item, hfields, rfl⟩ := Option.map_eq_some_iff.1 hitem
  obtain rfl := Json.eq_obj_of_fields? hfields
  exact distinctKeys_pathItem _ (distinctKeys_objectAt h "parameters")
    (hpaths.field (Fields.mem_of_get? hsource))

theorem distinctKeys_components : (Json.obj (components root)).DistinctKeys := by
  have hkeys : (Fields.keys (components root)).Sublist
      ["schemas", "parameters", "responses", "securitySchemes"] := by
    simp only [components, Fields.keys_append]
    exact (((keys_optional_sublist "schemas" _).append
      (keys_optional_sublist "parameters" _)).append
      (keys_optional_sublist "responses" _)).append (keys_optional_sublist "securitySchemes" _)
  refine Json.distinctKeys_of_get? (List.Nodup.sublist hkeys (by decide)) fun k value hvalue => ?_
  rw [get?_components, componentsAt] at hvalue
  split_ifs at hvalue
  · exact h.field (Fields.mem_of_get? hvalue)
  · obtain rfl := Option.some.inj hvalue
    have hparams := distinctKeys_objectAt h "parameters"
    refine Json.DistinctKeys.mapValues (fun _ => distinctKeys_parameter) ?_
    exact Json.distinctKeys_obj_iff.2 ⟨Fields.nodup_keys_filter _ hparams.keys,
      fun field hfield => hparams.field (List.mem_filter.1 hfield).1⟩
  · obtain ⟨responses, hresponses, rfl⟩ := Option.map_eq_some_iff.1 hvalue
    exact (h.object hresponses).mapValues fun _ => distinctKeys_response _
  · exact h.field (Fields.mem_of_get? hvalue)

/-- **An upgraded document has distinct keys**, before its pointers are moved. -/
theorem distinctKeys_document : (Json.obj (document root)).DistinctKeys := by
  have hkeys : (Fields.keys (document root)).Sublist
      (["openapi", "info", "tags", "externalDocs", "security"] ++ ["servers"] ++
        ["paths", "components"]) := by
    simp only [document, Fields.keys_append, Fields.keys_cons]
    exact (((keys_select_sublist _ root).cons_cons "openapi").append
      (keys_optional_sublist "servers" _)).append (List.Sublist.refl _)
  refine Json.distinctKeys_obj_iff.2 ⟨List.Nodup.sublist hkeys (by decide), ?_⟩
  have hselect :
      (Json.obj (select ["info", "tags", "externalDocs", "security"] root)).DistinctKeys :=
    distinctKeys_select (by decide) h
  simp only [document, List.forall_mem_append, List.forall_mem_cons]
  refine ⟨⟨⟨Json.distinctKeys_str _, fun field => hselect.field⟩, ?_⟩, distinctKeys_paths h,
    distinctKeys_components h, by simp⟩
  intro field hfield
  obtain ⟨urls, hurls, rfl⟩ := Option.map_eq_some_iff.1 (Option.mem_toList.1 hfield)
  exact distinctKeys_someItems (distinctKeys_servers root) hurls

end
end Upgrade
end ApiDigest
