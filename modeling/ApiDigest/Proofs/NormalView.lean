/-
  The view of an old document.

  An old document is upgraded, bundled and viewed.  Seen from the source, every path
  item that is an object and every operation in it that is one is there, at its
  place; what its keys hold follows from the statements on upgraded parts.

  * `Upgrade.viewDocument` is the view in terms of the source, and
    `Upgrade.document?_eq` says that it is what is viewed;
  * `Upgrade.visit_mem`: the operation of a method at a path is visited there, with
    the view `Upgrade.viewOperation`;
  * `Upgrade.get?_normalOperation_parameters`, `get?_normalOperation_requestBody` and
    `get?_normalOperation_responses` are what the keys of an operation hold there;
  * `Upgrade.OldOperation` is an operation of an old document at its place, and
    `Upgrade.OldOperation.record_at` the record that the digest has there.
-/
import ApiDigest.Document.Reading
import ApiDigest.Loading
import ApiDigest.Proofs.DistinctKeys
import ApiDigest.Proofs.Places
import ApiDigest.Proofs.Pointers
import ApiDigest.Proofs.UpgradedParts
import Mathlib.Tactic.Simps.Basic

namespace ApiDigest

/-- The document that is viewed of a value, once that is in the normal shape. -/
def Json.document? (origin : String) (value : Json) : Option Document :=
  match value.normalize origin with
  | .ok normal => (Document.ofJson normal).toOption
  | .error _ => none

/-! ## Bundled path items and operations -/

namespace Bundle

variable (components : List (String × Json)) {fields : List (String × Json)}

theorem get?_foldl_update (f : Json → Json) {keys : List String} (hnd : keys.Nodup)
    (fields : List (String × Json)) (k : String) :
    Fields.get? k (keys.foldl (fun fields key => Fields.update key f fields) fields) =
      if k ∈ keys then (Fields.get? k fields).map f else Fields.get? k fields := by
  induction keys generalizing fields with
  | nil => simp
  | cons key rest ih =>
    obtain ⟨hkey, hrest⟩ := List.nodup_cons.1 hnd
    rw [List.foldl_cons, ih hrest, Fields.get?_update]
    by_cases h : k = key
    · subst h; simp [hkey]
    · simp [h]

theorem get?_inlinePathItem (fields : List (String × Json)) (k : String) :
    Fields.get? k (inlinePathItem components fields) =
      if k ∈ methods then (Fields.get? k fields).map (Json.mapFields (inlineOperation components))
      else if k = "parameters" then (Fields.get? k fields).map (Json.mapItems (inline components))
      else Fields.get? k fields := by
  rw [inlinePathItem, get?_foldl_update _ (by decide), inlineParameters, Fields.get?_update]
  by_cases hk : k = "parameters"
  · subst hk; simp [methods]
  · simp [hk]

theorem get?_inlineOperation (fields : List (String × Json)) (k : String) :
    Fields.get? k (inlineOperation components fields) =
      if k = "parameters" then (Fields.get? k fields).map (Json.mapItems (inline components))
      else if k = "requestBody" then (Fields.get? k fields).map (inline components)
      else if k = "responses" then
        (Fields.get? k fields).map (Json.mapFields (Fields.mapValues (inline components)))
      else Fields.get? k fields := by
  rw [inlineOperation, inlineParameters, Fields.get?_update, Fields.get?_update,
    Fields.get?_update]
  by_cases hparams : k = "parameters"
  · subst hparams; simp
  · by_cases hbody : k = "requestBody"
    · subst hbody; simp
    · simp [hparams, hbody]

end Bundle

namespace Upgrade

/-! ## Parts of a document -/

section
variable {root : List (String × Json)} {key : String} {value : Json}

theorem objectAt_eq (key : String) (root : List (String × Json)) :
    objectAt key root = [] ∨ (key, Json.obj (objectAt key root)) ∈ root := by
  unfold objectAt
  cases hget : Fields.get? key root with
  | none => exact Or.inl rfl
  | some value =>
    cases value with
    | obj fields => exact Or.inr (Fields.mem_of_get? hget)
    | _ => exact Or.inl rfl

theorem distinctKeys_objectAt (h : (Json.obj root).DistinctKeys) (key : String) :
    (Json.obj (objectAt key root)).DistinctKeys :=
  h.fieldsAt key

theorem lacks_objectAt {k : String} (h : (Json.obj root).Lacks k) (key : String) :
    (Json.obj (objectAt key root)).Lacks k := by
  rcases objectAt_eq key root with hempty | hmem
  · rw [hempty]; simp [Json.Lacks, Json.objects, Json.fieldObjects]
  · exact h.field hmem

theorem mem_itemsAt (h : value ∈ itemsAt key root) :
    ∃ items, (key, Json.arr items) ∈ root ∧ value ∈ items := by
  unfold itemsAt at h
  cases hget : Fields.get? key root with
  | none => simp [hget] at h
  | some array =>
    cases array with
    | arr items => exact ⟨items, Fields.mem_of_get? hget, by simpa [hget, Json.items?] using h⟩
    | _ => simp [hget, Json.items?] at h

theorem distinctKeys_itemsAt (h : (Json.obj root).DistinctKeys) (hmem : value ∈ itemsAt key root) :
    value.DistinctKeys := by
  obtain ⟨items, hitems, hvalue⟩ := mem_itemsAt hmem
  exact (h.field hitems).item hvalue

end

/-! ## The normal shape, seen from the source -/

variable (root item op : List (String × Json))

/-- The components of a document in the normal shape. -/
def normalComponents : List (String × Json) := moveObject (moveFields (components root))

/-- A path item in the normal shape. -/
def normalItem : List (String × Json) :=
  Bundle.inlinePathItem (normalComponents root)
    (moveObject (moveFields (pathItem (objectAt "parameters" root) (texts "produces" root) item)))

/-- An operation in the normal shape. -/
def normalOperation : List (String × Json) :=
  Bundle.inlineOperation (normalComponents root)
    (moveObject (moveFields (operation (sharedBody (objectAt "parameters" root) item)
      (objectAt "parameters" root) (texts "produces" root) op)))

/-- The view of a path item. -/
@[simps]
def viewItem : PathItem where
  operation := fun m => Fields.read m.key Operation.ofJson? (normalItem root item)
  parameters := Fields.readList "parameters" Parameter.ofJson? (normalItem root item)

/-- The view of an operation. -/
@[simps]
def viewOperation : Operation where
  id := Fields.read "operationId" Json.str? (normalOperation root item op)
  tags := Fields.readList "tags" Json.str? (normalOperation root item op)
  parameters := Fields.readList "parameters" Parameter.ofJson? (normalOperation root item op)
  body := Fields.read "requestBody" Body.ofJson? (normalOperation root item op)
  responses := Fields.readTable "responses" Response.ofJson? (normalOperation root item op)

/-- The view of a document. -/
@[simps]
def viewDocument : Document where
  paths := Table.ofList (Fields.filterMapValues (fun value => value.fields?.map (viewItem root))
    (objectAt "paths" root))
  schemas := Fields.readTable "schemas" Schema.ofJson? (normalComponents root)

variable {root item op}

/-! ### The document -/

theorem get?_document_paths :
    Fields.get? "paths" (document root) = some (.obj (paths root)) := by
  simp only [document, List.cons_append, Fields.get?_cons, Fields.get?_append, get?_select,
    get?_optional]
  simp

theorem get?_document_components :
    Fields.get? "components" (document root) = some (.obj (components root)) := by
  simp only [document, List.cons_append, Fields.get?_cons, Fields.get?_append, get?_select,
    get?_optional]
  simp

/-- No part that is put together has a null flag of the older dialect. -/
theorem notMem_keys_document : "x-nullable" ∉ Fields.keys (document root) := by
  rw [← Fields.get?_eq_none_iff]
  simp only [document, List.cons_append, Fields.get?_cons, Fields.get?_append, get?_select,
    get?_optional]
  simp

theorem notMem_keys_components : "x-nullable" ∉ Fields.keys (components root) := by
  rw [← Fields.get?_eq_none_iff, get?_components]
  simp [componentsAt]

theorem get?_normalComponents (k : String) :
    Fields.get? k (normalComponents root) = (componentsAt root k).map (moveAt k) := by
  rw [normalComponents, get?_moveObject_of_notMem notMem_keys_components, get?_components]

theorem isSome_fields?_paths : ∀ field ∈ paths root, field.2.fields?.isSome := by
  intro field hmem
  obtain ⟨⟨path, value⟩, -, h⟩ := List.mem_filterMap.1 hmem
  obtain ⟨value', hvalue, rfl⟩ := Option.map_eq_some_iff.1 h
  obtain ⟨item, -, rfl⟩ := Option.map_eq_some_iff.1 hvalue
  rfl

theorem moveObject_paths (hx : "x-nullable" ∉ Fields.keys (objectAt "paths" root)) :
    moveObject (moveFields (paths root)) = Fields.mapValues move (paths root) :=
  moveObject_of_objects
    (fun hmem => hx ((Fields.keys_filterMapValues_sublist _ _).subset hmem)) isSome_fields?_paths

/-- What stands at the root of an old document in the normal shape. -/
theorem bundle_upgrade (root : List (String × Json)) :
    ∃ normal, (Json.obj root).upgrade.bundle = .obj normal ∧
      Fields.get? "paths" normal = some (.obj (Fields.mapValues
        (Json.mapFields (Bundle.inlinePathItem (normalComponents root)))
        (moveObject (moveFields (paths root))))) ∧
      Fields.get? "components" normal = some (.obj (normalComponents root)) := by
  have hx : "x-nullable" ∉ Fields.keys (document root) := notMem_keys_document
  have hget := get?_moveObject_of_notMem hx
  have hpaths := hget "paths"
  have hcomponents := hget "components"
  rw [get?_document_paths, Option.map_some, moveAt_obj] at hpaths
  rw [get?_document_components, Option.map_some, moveAt_obj] at hcomponents
  set moved := moveObject (moveFields (document root))
  have hat : (Json.obj moved).fieldsAt "components" = normalComponents root := by
    rw [Json.fieldsAt, Json.get?_obj, hcomponents]; rfl
  have hbundle : (Json.obj root).upgrade.bundle = .obj (Fields.update "paths"
      (Json.mapFields (Fields.mapValues
        (Json.mapFields (Bundle.inlinePathItem (normalComponents root))))) moved) := by
    rw [← hat]; rfl
  refine ⟨_, hbundle, ?_, ?_⟩
  · rw [Fields.get?_update, if_pos rfl, hpaths]; rfl
  · rw [Fields.get?_update, if_neg (by decide), hcomponents]; rfl

/-- A path item that is put into the normal shape is viewed as such. -/
theorem filterMapValues_paths (root fields : List (String × Json)) :
    Fields.filterMapValues PathItem.ofJson?
        (Fields.mapValues (Json.mapFields (Bundle.inlinePathItem (normalComponents root)))
          (Fields.mapValues move (Fields.filterMapValues (fun item => item.fields?.map fun item =>
            .obj (pathItem (objectAt "parameters" root) (texts "produces" root) item)) fields))) =
      Fields.filterMapValues (fun value => value.fields?.map (viewItem root)) fields := by
  simp only [Fields.filterMapValues, Fields.mapValues, List.filterMap_map, List.filterMap_filterMap]
  refine List.filterMap_congr fun field _ => ?_
  obtain ⟨path, value⟩ := field
  cases value with
  | obj item =>
    have hitem : PathItem.ofJson? (.obj (normalItem root item)) = some (viewItem root item) := rfl
    simp only [Json.fields?, Option.map_some, Option.bind_some, Function.comp, move_obj,
      Json.mapFields]
    rw [← normalItem, hitem]; rfl
  | _ => rfl

/-- **The view of an old document**, put together from the source. -/
theorem document?_eq (hold : Dialect.ofJson (.obj root) = .swagger2)
    (hx : "x-nullable" ∉ Fields.keys (objectAt "paths" root)) (origin : String) :
    (Json.obj root).document? origin = some (viewDocument root) := by
  obtain ⟨normal, hnormal, hpaths, hcomponents⟩ := bundle_upgrade root
  rw [moveObject_paths hx] at hpaths
  have hdocument : Document.ofFields normal = viewDocument root := by
    rw [Document.ofFields, viewDocument, Fields.readTable, hpaths, Fields.read, hcomponents]
    refine congrArg₂ Document.mk (congrArg Table.ofList ?_) rfl
    exact filterMapValues_paths root (objectAt "paths" root)
  simp only [Json.document?, Json.normalize, hold, hnormal, Document.ofJson_obj, Except.toOption,
    hdocument]

/-! ### Path items and operations -/

section
variable {path : String} {m : Method}

theorem key_mem_methods (m : Method) : m.key ∈ methods ∧ m.key ∈ Bundle.methods := by
  cases m <;> decide

theorem key_ne (m : Method) : m.key ≠ "parameters" ∧ m.key ≠ "x-nullable" ∧ m.key ≠ "nullable" := by
  cases m <;> decide

theorem get?_normalItem_method (hnd : (Fields.keys item).Nodup) (m : Method) :
    Fields.get? m.key (normalItem root item) =
      ((Fields.get? m.key item).bind Json.fields?).map fun op =>
        .obj (normalOperation root item op) := by
  obtain ⟨hmethod, hbundled⟩ := key_mem_methods m
  obtain ⟨hparams, hx, hn⟩ := key_ne m
  obtain ⟨hndItem, hget⟩ := get?_pathItem (objectAt "parameters" root) (texts "produces" root) hnd
  rw [normalItem, Bundle.get?_inlinePathItem, if_pos hbundled, get?_moveObject hndItem hx hn, hget,
    pathItemAt, if_neg hparams, if_pos hmethod]
  cases (Fields.get? m.key item).bind Json.fields? with
  | none => rfl
  | some op =>
    rw [Option.map_some, Option.map_some, Option.map_some, Option.map_some, moveAt_obj]
    rfl

/-- **The operations of a path item** are its objects at the keys of methods. -/
theorem operation_viewItem (hnd : (Fields.keys item).Nodup) (m : Method) :
    (viewItem root item).operation m =
      ((Fields.get? m.key item).bind Json.fields?).map (viewOperation root item) := by
  rw [viewItem_operation, Fields.read, get?_normalItem_method hnd]
  cases (Fields.get? m.key item).bind Json.fields? <;> rfl

/-- The parameters that are part of a list at the end. -/
theorem readList_parameters (params : List Json) :
    ((((someItems params).map (moveAt "parameters")).map
        (Json.mapItems (Bundle.inline (normalComponents root)))).map
      (Json.readItems Parameter.ofJson?)).getD [] =
      params.filterMap fun param =>
        Parameter.ofJson? (Bundle.inline (normalComponents root) (move param)) := by
  unfold someItems
  split_ifs with hempty
  · rw [List.isEmpty_iff.1 hempty]; rfl
  · rw [Option.map_some, Option.map_some, Option.map_some, moveAt_of_ne (by decide), move_arr]
    simp [Json.mapItems, Json.readItems, List.filterMap_map, Function.comp_def]

theorem parameters_viewItem (hnd : (Fields.keys item).Nodup) :
    (viewItem root item).parameters =
      (sharedProper (objectAt "parameters" root) item).filterMap fun param =>
        Parameter.ofJson? (Bundle.inline (normalComponents root) (move param)) := by
  obtain ⟨hndItem, hget⟩ := get?_pathItem (objectAt "parameters" root) (texts "produces" root) hnd
  rw [viewItem_parameters, Fields.readList, normalItem, Bundle.get?_inlinePathItem,
    if_neg (by decide), if_pos rfl, get?_moveObject hndItem (by decide) (by decide), hget,
    pathItemAt, if_pos rfl]
  exact readList_parameters _

/-- What a key of an operation holds in the normal shape, before pointers are followed. -/
theorem get?_moved_operation (hnd : (Fields.keys op).Nodup) {k : String} (hx : k ≠ "x-nullable")
    (hn : k ≠ "nullable") :
    Fields.get? k (moveObject (moveFields (operation (sharedBody (objectAt "parameters" root) item)
      (objectAt "parameters" root) (texts "produces" root) op))) =
      (operationAt (sharedBody (objectAt "parameters" root) item) (objectAt "parameters" root)
        (texts "produces" root) op k).map (moveAt k) := by
  obtain ⟨hndOp, hget⟩ := get?_operation (sharedBody (objectAt "parameters" root) item)
    (objectAt "parameters" root) (texts "produces" root) hnd
  rw [get?_moveObject hndOp hx hn, hget]

/-- What an operation's parameters come to, with those of its path that are part of a
    body. -/
def operationInputs (root item op : List (String × Json)) : Inputs :=
  inputsOf (sharedBody (objectAt "parameters" root) item) (objectAt "parameters" root) op

section
variable (hnd : (Fields.keys op).Nodup)
include hnd

theorem get?_normalOperation_parameters :
    Fields.get? "parameters" (normalOperation root item op) =
      ((someItems (operationInputs root item op).parameters).map (moveAt "parameters")).map
        (Json.mapItems (Bundle.inline (normalComponents root))) := by
  rw [normalOperation, Bundle.get?_inlineOperation, if_pos rfl,
    get?_moved_operation hnd (by decide) (by decide)]
  rfl

theorem get?_normalOperation_requestBody :
    Fields.get? "requestBody" (normalOperation root item op) =
      (((operationInputs root item op).body.or (operationInputs root item op).form.body?).or
        (Fields.get? "requestBody" op)).map fun value =>
          Bundle.inline (normalComponents root) (move value) := by
  rw [normalOperation, Bundle.get?_inlineOperation, if_neg (by decide), if_pos rfl,
    get?_moved_operation hnd (by decide) (by decide), map_moveAt (by decide), Option.map_map]
  rfl

theorem get?_normalOperation_responses :
    Fields.get? "responses" (normalOperation root item op) =
      ((Fields.get? "responses" op).bind Json.fields?).map fun responses =>
        .obj (Fields.mapValues (Bundle.inline (normalComponents root)) (moveObject (moveFields
          (Fields.mapValues (response (producesOf (texts "produces" root) op)) responses)))) := by
  rw [normalOperation, Bundle.get?_inlineOperation, if_neg (by decide), if_neg (by decide),
    if_pos rfl, get?_moved_operation hnd (by decide) (by decide), operationAt, if_pos rfl]
  cases (Fields.get? "responses" op).bind Json.fields? with
  | none => rfl
  | some responses =>
    rw [Option.map_some, Option.map_some, moveAt_obj, move_obj]
    rfl

/-- A key that is not brought over holds what it held. -/
theorem get?_normalOperation_other {k : String}
    (hk : k ∉ ["parameters", "requestBody", "responses", "x-nullable", "nullable"])
    (hmedia : k ∉ ["produces", "consumes", "schemes"]) :
    Fields.get? k (normalOperation root item op) = (Fields.get? k op).map (moveAt k) := by
  simp only [List.mem_cons, List.not_mem_nil, or_false, not_or] at hk
  obtain ⟨hparams, hbody, hresponses, hx, hn⟩ := hk
  rw [normalOperation, Bundle.get?_inlineOperation, if_neg hparams, if_neg hbody,
    if_neg hresponses, get?_moved_operation hnd hx hn, operationAt, if_neg hresponses,
    if_neg hbody, if_neg hparams, if_neg hmedia]

theorem parameters_viewOperation :
    (viewOperation root item op).parameters =
      (operationInputs root item op).parameters.filterMap fun param =>
        Parameter.ofJson? (Bundle.inline (normalComponents root) (move param)) := by
  rw [viewOperation_parameters, Fields.readList, get?_normalOperation_parameters hnd]
  exact readList_parameters _

end

/-- The visit of an operation. -/
@[simps]
def viewVisit (root item op : List (String × Json)) (path : String) (m : Method) : Visit :=
  ⟨path, m, viewOperation root item op, (viewItem root item).parameters⟩

/-- The visits of a path item, from the source. -/
theorem visits_viewItem (hnd : (Fields.keys item).Nodup) (path : String) :
    (viewItem root item).visits path = Method.all.filterMap fun m =>
      ((Fields.get? m.key item).bind Json.fields?).map fun op =>
        viewVisit root item op path m := by
  rw [PathItem.visits, PathItem.operations, List.map_filterMap]
  refine List.filterMap_congr fun m _ => ?_
  rw [operation_viewItem hnd, Option.map_map, Option.map_map]
  rfl

/-- **The visits of a document**, from the source. -/
theorem visits_viewDocument (hnd : (Fields.keys (objectAt "paths" root)).Nodup) :
    (viewDocument root).visits = (objectAt "paths" root).flatMap fun field =>
      (field.2.fields?.map fun item => (viewItem root item).visits field.1).getD [] := by
  have hentries := hnd.sublist
    (Fields.keys_filterMapValues_sublist (fun value => value.fields?.map (viewItem root)) _)
  rw [Document.visits, viewDocument_paths, Table.entries_ofList hentries]
  rw [Fields.flatMap_filterMapValues]
  simp only [Option.map_map, Function.comp_def]

/-- **Every operation of the source is visited at its place.** -/
theorem visit_mem (hroot : (Json.obj root).DistinctKeys)
    (hitem : Fields.get? path (objectAt "paths" root) = some (.obj item))
    (hop : Fields.get? m.key item = some (.obj op)) :
    viewVisit root item op path m ∈ (viewDocument root).visits := by
  have hndPaths := (distinctKeys_objectAt hroot "paths").keys
  have hndItem := ((distinctKeys_objectAt hroot "paths").field (Fields.mem_of_get? hitem)).keys
  have hview : (viewItem root item).operation m = some (viewOperation root item op) := by
    rw [operation_viewItem hndItem, hop]
    rfl
  have hentry : (path, viewItem root item) ∈ (viewDocument root).paths.entries := by
    refine Fields.mem_of_get? ?_
    rw [viewDocument_paths, Table.entries_ofList
      (hndPaths.sublist (Fields.keys_filterMapValues_sublist _ _)),
      Fields.get?_filterMapValues _ hndPaths, hitem]
    rfl
  refine List.mem_flatMap.2 ⟨_, hentry, List.mem_map.2 ⟨(m, viewOperation root item op), ?_, rfl⟩⟩
  exact List.mem_filterMap.2 ⟨m, by cases m <;> decide, by rw [hview]; rfl⟩

/-! ### Records -/

/-- A document of the older dialect.  No object in it has a key twice, as after every
    reading, and no flag `x-nullable` occurs. -/
structure OldDocument (root : List (String × Json)) : Prop where
  dialect : Dialect.ofJson (.obj root) = .swagger2
  distinct : (Json.obj root).DistinctKeys
  flagless : (Json.obj root).Lacks "x-nullable"

/-- An operation of such a document at its place. -/
structure OldOperation (root : List (String × Json)) (path : String) (m : Method)
    (item op : List (String × Json)) : Prop extends OldDocument root where
  itemAt : Fields.get? path (objectAt "paths" root) = some (.obj item)
  operationAt : Fields.get? m.key item = some (.obj op)

theorem OldDocument.document?_eq (h : OldDocument root) (origin : String) :
    (Json.obj root).document? origin = some (viewDocument root) :=
  Upgrade.document?_eq h.dialect (lacks_objectAt h.flagless "paths").keys origin

namespace OldOperation

theorem distinct_item (h : OldOperation root path m item op) : (Json.obj item).DistinctKeys :=
  (distinctKeys_objectAt h.distinct "paths").field (Fields.mem_of_get? h.itemAt)

theorem distinct_op (h : OldOperation root path m item op) : (Json.obj op).DistinctKeys :=
  h.distinct_item.field (Fields.mem_of_get? h.operationAt)

/-- **The record of an old operation.** -/
theorem record_at (h : OldOperation root path m item op) :
    ∃ record, (viewDocument root).digest.operationAt? path m = some record ∧
      record = (viewVisit root item op path m).record record.id
        ((viewDocument root).bodyShape path m record.id (viewOperation root item op).bodySchema?)
        ((viewDocument root).responseShape path m record.id
          (viewOperation root item op).responseSchema?) ∧
      (viewVisit root item op path m).made ((viewDocument root).takenAt path m) record.id ⊆
        (viewDocument root).digest.schemas :=
  Document.record_at (visit_mem h.distinct h.itemAt h.operationAt)

end OldOperation

end
end Upgrade
end ApiDigest
