/-
  Which operations have a body once they are upgraded.

  A pointer to a reusable body is replaced if the text after its beginning is the
  name of the body itself.  A pointer that needs escapes, or that leads to another
  pointer, is not, and the body behind it is lost.

  * `Upgrade.carriesBody` holds of the parameters that make a body;
  * `Upgrade.requestBody_upgraded_iff`: which operations have a body.
-/
import ApiDigest.Proofs.NormalView

namespace ApiDigest.Upgrade

variable {root item op : List (String × Json)} {param : Json}

/-! ## Parameters that make a body -/

/-- A parameter makes a body: it is one, or a field of a form with a name. -/
def carriesBody (param : Json) : Bool :=
  isBody param || (isForm param && (param.text? "name").isSome)

theorem isBodyLike_of_carriesBody (h : carriesBody param = true) : isBodyLike param = true := by
  rw [carriesBody, Bool.or_eq_true, Bool.and_eq_true] at h
  rw [isBodyLike_eq, Bool.or_eq_true]
  exact h.imp_right And.left

theorem insert_ne_nil (key : String) (value : Json) : ∀ fields : List (String × Json),
    Fields.insert key value fields ≠ []
  | [] => List.cons_ne_nil _ _
  | field :: rest => by
    rw [Fields.insert]
    split_ifs <;> exact List.cons_ne_nil _ _

/-- A form has fields as soon as one of them has a name. -/
theorem properties_foldl_add (params : List Json) (form : Form) :
    (params.foldl Form.add form).properties ≠ [] ↔
      form.properties ≠ [] ∨ ∃ param ∈ params, (param.text? "name").isSome = true := by
  induction params generalizing form with
  | nil => simp
  | cons param rest ih =>
    rw [List.foldl_cons, ih, Form.add]
    cases hname : param.text? "name" with
    | none => simp [hname]
    | some name => simp [hname, insert_ne_nil]

theorem isSome_body? (form : Form) : form.body?.isSome = true ↔ form.properties ≠ [] := by
  by_cases hempty : form.properties = []
  · simp [Form.body?, hempty]
  · rw [Form.body?, if_neg (by simpa using hempty)]
    simp [hempty]

/-- **A list of parameters has a body** as soon as one of them makes one. -/
theorem isSome_body_ofList (params : List Json) :
    (((Inputs.ofList params).body.or (Inputs.ofList params).form.body?).isSome = true) ↔
      ∃ param ∈ params, carriesBody param = true := by
  have hbody : ((params.filter isBody).getLast?.map bodyOf).isSome = true ↔
      ∃ param ∈ params, isBody param = true := by
    rw [Option.isSome_map, List.getLast?_isSome, ne_eq, List.filter_eq_nil_iff]
    simp
  have hform : ((params.filter isForm).foldl Form.add .empty).body?.isSome = true ↔
      ∃ param ∈ params, isForm param = true ∧ (param.text? "name").isSome = true := by
    rw [isSome_body?, properties_foldl_add]
    simp [Form.empty, and_assoc]
  rw [ofList_eq, Option.isSome_or, Bool.or_eq_true, hbody, hform]
  simp only [carriesBody, Bool.or_eq_true, Bool.and_eq_true]
  constructor
  · rintro (⟨param, hmem, h⟩ | ⟨param, hmem, h⟩)
    · exact ⟨param, hmem, Or.inl h⟩
    · exact ⟨param, hmem, Or.inr h⟩
  · rintro ⟨param, hmem, h | h⟩
    · exact Or.inl ⟨param, hmem, h⟩
    · exact Or.inr ⟨param, hmem, h⟩

/-! ## Operations with a body -/

/-- The operation of a method at a path of a document that is upgraded. -/
def upgradedOperation? (root : List (String × Json)) (path : String) (m : Method) : Option Json :=
  (((Json.obj root).upgrade.get? "paths").bind (Json.get? path)).bind (Json.get? m.key)

/-- An operation of the source is there once the document is upgraded. -/
theorem upgradedOperation?_eq {path : String} {m : Method} (hroot : (Json.obj root).DistinctKeys)
    (hpath : path ∉ ["x-nullable", "nullable"])
    (hitem : Fields.get? path (objectAt "paths" root) = some (.obj item))
    (hop : Fields.get? m.key item = some (.obj op)) :
    upgradedOperation? root path m =
      some (.obj (moveObject (moveFields (operation (sharedBody (objectAt "parameters" root) item)
        (objectAt "parameters" root) (texts "produces" root) op)))) := by
  obtain ⟨hmethod, -⟩ := key_mem_methods m
  obtain ⟨hparams, hmx, hmn⟩ := key_ne m
  have hpaths := distinctKeys_objectAt hroot "paths"
  obtain ⟨hndItem, hgetItem⟩ := get?_pathItem (objectAt "parameters" root) (texts "produces" root)
    (hpaths.field (Fields.mem_of_get? hitem)).keys
  have htable : (Json.obj root).upgrade.get? "paths" =
      some (.obj (moveObject (moveFields (paths root)))) := by
    show Fields.get? "paths" (moveObject (moveFields (document root))) = _
    rw [get?_moveObject_of_notMem notMem_keys_document, get?_document_paths, Option.map_some,
      moveAt_obj, move_obj]
  have hndPaths : (Fields.keys (paths root)).Nodup :=
    hpaths.keys.sublist (Fields.keys_filterMapValues_sublist _ _)
  have hat : Fields.get? path (moveObject (moveFields (paths root))) =
      some (move (.obj (pathItem (objectAt "parameters" root) (texts "produces" root) item))) := by
    simp only [List.mem_cons, List.not_mem_nil, or_false, not_or] at hpath
    rw [get?_moveObject hndPaths hpath.1 hpath.2, paths, Fields.get?_filterMapValues _ hpaths.keys,
      hitem, Option.bind_some, Json.fields?, Option.map_some, Option.map_some, moveAt_obj]
  rw [upgradedOperation?, htable, Option.bind_some, Json.get?_obj, hat, move_obj, Option.bind_some,
    Json.get?_obj, get?_moveObject hndItem hmx hmn, hgetItem, pathItemAt, if_neg hparams,
    if_pos hmethod, hop, Option.bind_some, Json.fields?, Option.map_some, Option.map_some,
    moveAt_obj, move_obj]

/-- What makes a body among the parameters of a path goes to each of its operations. -/
theorem exists_carriesBody_iff (table item op : List (String × Json)) :
    (∃ param ∈ sharedBody table item ++ inlined table op, carriesBody param = true) ↔
      ∃ param ∈ itemsAt "parameters" item ++ itemsAt "parameters" op,
        carriesBody (inlineBodyLike table param) = true := by
  constructor
  · rintro ⟨param, hmem, h⟩
    rcases List.mem_append.1 hmem with hmem | hmem
    · obtain ⟨source, hsource, rfl⟩ := List.mem_map.1 (List.mem_filter.1 hmem).1
      exact ⟨source, List.mem_append_left _ hsource, h⟩
    · obtain ⟨source, hsource, rfl⟩ := List.mem_map.1 hmem
      exact ⟨source, List.mem_append_right _ hsource, h⟩
  · rintro ⟨param, hmem, h⟩
    refine ⟨_, List.mem_append.2 ?_, h⟩
    rcases List.mem_append.1 hmem with hmem | hmem
    · exact Or.inl (List.mem_filter.2 ⟨List.mem_map_of_mem hmem, isBodyLike_of_carriesBody h⟩)
    · exact Or.inr (List.mem_map_of_mem hmem)

/-- **An upgraded operation has a body** exactly if it had one, or if some parameter of it
    or of its path makes one, in place or behind a pointer by its bare name.  A path is
    found under its own name, as no path is named like a null flag. -/
theorem requestBody_upgraded_iff {path : String} {m : Method} (hroot : (Json.obj root).DistinctKeys)
    (hpath : path ∉ ["x-nullable", "nullable"])
    (hitem : Fields.get? path (objectAt "paths" root) = some (.obj item))
    (hop : Fields.get? m.key item = some (.obj op)) :
    ∃ upgraded, upgradedOperation? root path m = some upgraded ∧
      ((upgraded.get? "requestBody").isSome = true ↔
        (Fields.get? "requestBody" op).isSome = true ∨
          ∃ param ∈ itemsAt "parameters" item ++ itemsAt "parameters" op,
            carriesBody (inlineBodyLike (objectAt "parameters" root) param) = true) := by
  have hitemKeys := (distinctKeys_objectAt hroot "paths").field (Fields.mem_of_get? hitem)
  have hopKeys := hitemKeys.field (Fields.mem_of_get? hop)
  refine ⟨_, upgradedOperation?_eq hroot hpath hitem hop, ?_⟩
  rw [Json.get?_obj, get?_moved_operation hopKeys.keys (by decide) (by decide), Option.isSome_map,
    operationAt, if_neg (by decide), if_pos rfl, inputsOf, Option.isSome_or, Bool.or_eq_true,
    isSome_body_ofList, exists_carriesBody_iff, or_comm]

/-- A pointer whose name needs an escape. -/
def escapedPointer : Json := .obj [("$ref", .str "#/parameters/draft~1new")]

/-- A pointer to a pointer. -/
def aliasPointer : Json := .obj [("$ref", .str "#/parameters/alias")]

/-- A pointer to a body by its bare name. -/
def barePointer : Json := .obj [("$ref", .str "#/parameters/draft")]

/-- Operations with these pointers. -/
def draftItem : List (String × Json) := [
  ("post", .obj [("parameters", .arr [escapedPointer])]),
  ("put", .obj [("parameters", .arr [aliasPointer])]),
  ("patch", .obj [("parameters", .arr [barePointer])])]

/-- Bodies that are reusable, and one that is so through another pointer. -/
def draftParameters : List (String × Json) := [
  ("draft", .obj [("name", .str "draft"), ("in", .str "body")]),
  ("draft/new", .obj [("name", .str "draft"), ("in", .str "body")]),
  ("alias", barePointer)]

/-- A document with them. -/
def drafts : List (String × Json) := [
  ("swagger", .str "2.0"), ("parameters", .obj draftParameters),
  ("paths", .obj [("/drafts", .obj draftItem)])]

theorem requestBody_upgraded_drafts :
    (Json.obj drafts).DistinctKeys ∧ "/drafts" ∉ ["x-nullable", "nullable"] ∧
      Fields.get? "/drafts" (objectAt "paths" drafts) = some (.obj draftItem) ∧
      ∃ upgraded, upgradedOperation? drafts "/drafts" .patch = some upgraded ∧
        (upgraded.get? "requestBody").isSome = true := by
  have hdrafts : (Json.obj drafts).DistinctKeys := by decide +kernel
  have hpath : "/drafts" ∉ ["x-nullable", "nullable"] := by decide
  have hitem : Fields.get? "/drafts" (objectAt "paths" drafts) = some (.obj draftItem) := rfl
  obtain ⟨upgraded, hupgraded, hiff⟩ :=
    requestBody_upgraded_iff (m := .patch) hdrafts hpath hitem rfl
  exact ⟨hdrafts, hpath, hitem, upgraded, hupgraded,
    hiff.2 (Or.inr ⟨barePointer, List.mem_singleton_self _, by decide +kernel⟩)⟩

/-! ## Bodies that are lost -/

/-- The reusable parameter that a pointer names once its escapes are undone. -/
def namedParameter? (table : List (String × Json)) (param : Json) : Option Json :=
  ((param.text? "$ref").bind (Text.afterStart? "#/parameters/")).bind fun name =>
    Fields.get? (Pointer.unescape name) table

/-- What a parameter leads to within a table after at most the given number of hops. -/
def followParameter (table : List (String × Json)) : Nat → Json → Json
  | 0, param => param
  | hops + 1, param =>
    match namedParameter? table param with
    | some target => followParameter table hops target
    | none => param

/-- An operation keeps every body that one of its parameters, or one of its path, leads
    to, with escapes undone and over at most eight hops. -/
def KeepsBody (root : List (String × Json)) (path : String) (m : Method) : Prop :=
  ∀ item op param, Fields.get? path (objectAt "paths" root) = some (.obj item) →
    Fields.get? m.key item = some (.obj op) →
    param ∈ itemsAt "parameters" item ++ itemsAt "parameters" op →
    (soleName? "#/parameters/" param).isSome = true →
    isBody (followParameter (objectAt "parameters" root) 8 param) = true →
    ∃ upgraded, upgradedOperation? root path m = some upgraded ∧
      (upgraded.get? "requestBody").isSome = true

theorem not_keepsBody {path : String} {m : Method}
    (hitem : Fields.get? path (objectAt "paths" root) = some (.obj item))
    (hop : Fields.get? m.key item = some (.obj op))
    (hparam : param ∈ itemsAt "parameters" item ++ itemsAt "parameters" op)
    (hpointer : (soleName? "#/parameters/" param).isSome = true)
    (hbody : isBody (followParameter (objectAt "parameters" root) 8 param) = true)
    (hlost : ((upgradedOperation? root path m).bind (Json.get? "requestBody")).isSome = false) :
    ¬ KeepsBody root path m := by
  intro h
  obtain ⟨upgraded, hupgraded, hsome⟩ := h item op param hitem hop hparam hpointer hbody
  rw [hupgraded, Option.bind_some, hsome] at hlost
  cases hlost

/-- **A body behind an escape or behind another pointer is lost.** -/
theorem body_lost_drafts :
    Dialect.ofJson (.obj drafts) = .swagger2 ∧ (Json.obj drafts).DistinctKeys ∧
      ¬ KeepsBody drafts "/drafts" .post ∧ ¬ KeepsBody drafts "/drafts" .put := by
  refine ⟨by decide +kernel, by decide +kernel, ?_, ?_⟩
  · exact not_keepsBody rfl rfl (List.mem_singleton_self escapedPointer) (by decide +kernel)
      (by decide +kernel) (by decide +kernel)
  · exact not_keepsBody rfl rfl (List.mem_singleton_self aliasPointer) (by decide +kernel)
      (by decide +kernel) (by decide +kernel)

end ApiDigest.Upgrade
