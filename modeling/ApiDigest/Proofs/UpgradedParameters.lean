/-
  The parameters of an old operation.

  Parameters stand in place or are nothing but pointers to reusable ones.  Seen from
  the source, the digest has one record for each parameter in the path or the query
  that has a name, unless a later one replaces it.

  * `Upgrade.parameters_inlined` and `Upgrade.bodyLike_inlined`: the parameters
    proper of a list come to those that are meant, and so do the parts of bodies;
  * `Upgrade.paramRecord?` is the record of a parameter, read off the source;
  * `Upgrade.params_of_source`: the parameters of an operation's record.
-/
import ApiDigest.Proofs.MergedParameters
import ApiDigest.Proofs.NormalView
import ApiDigest.Proofs.Places
import ApiDigest.Proofs.ViewedNodes

namespace ApiDigest

theorem ParamPlace.eq_path_iff {word : String} {place : ParamPlace}
    (h : ofName? word = some place) : word = "path" ↔ place = .path := by
  unfold ofName? at h
  split_ifs at h with hpath <;> cases h <;> simp [hpath]

namespace Upgrade

/-! ## Parameters that are meant -/

/-- The parameters of a path item or an operation: those in place, and the reusable
    ones that are pointed at. -/
def meantParameters (root fields : List (String × Json)) : List Json :=
  (itemsAt "parameters" fields).map (deref "#/parameters/" (objectAt "parameters" root))

/-- Every parameter of a path item or an operation is an object in place or nothing
    but a pointer to a reusable one. -/
def ParametersResolve (root fields : List (String × Json)) : Prop :=
  ∀ param ∈ itemsAt "parameters" fields,
    Resolves "#/parameters/" (objectAt "parameters" root) param

instance (root fields : List (String × Json)) : Decidable (ParametersResolve root fields) :=
  inferInstanceAs (Decidable (∀ param ∈ itemsAt "parameters" fields, _))

section
variable {table : List (String × Json)} {start : String} {param : Json}

theorem get?_of_isPlain (h : IsPlain param) : param.get? "$ref" = none := by
  obtain ⟨fields, rfl, href⟩ := h.exists_obj
  exact Fields.get?_eq_none_iff.2 href

theorem inlineBodyLike_of_isPlain (h : IsPlain param) : inlineBodyLike table param = param := by
  rw [inlineBodyLike, Json.text?, get?_of_isPlain h]
  rfl

theorem inlineBodyLike_of_soleName? {name : String} {target : Json}
    (hname : soleName? "#/parameters/" param = some name)
    (htarget : Fields.get? name table = some target) :
    inlineBodyLike table param = if isBodyLike target then target else param := by
  have htext : param.text? "$ref" = some ("#/parameters/" ++ name) := by
    rw [eq_of_soleName? hname]; rfl
  rw [inlineBodyLike, htext, Option.bind_some, Text.afterStart?_append, Option.bind_some, htarget]

theorem isBodyLike_of_soleName? {name : String} (h : soleName? start param = some name) :
    isBodyLike param = false := by
  rw [eq_of_soleName? h]; rfl

/-- A part of a body is put in the place of its pointer at once. -/
theorem inlineBodyLike_eq_deref (h : Resolves "#/parameters/" table param)
    (hbody : isBodyLike (deref "#/parameters/" table param) = true) :
    inlineBodyLike table param = deref "#/parameters/" table param := by
  rcases h with h | ⟨name, hname, -, target, htarget, -⟩
  · rw [inlineBodyLike_of_isPlain h, deref_of_isPlain h]
  · rw [deref_of_soleName? hname htarget] at hbody ⊢
    rw [inlineBodyLike_of_soleName? hname htarget, if_pos hbody]

/-- A pointer to a parameter proper stays at first. -/
theorem inlineBodyLike_eq_self (h : Resolves "#/parameters/" table param)
    (hbody : isBodyLike (deref "#/parameters/" table param) = false) :
    inlineBodyLike table param = param := by
  rcases h with h | ⟨name, hname, -, target, htarget, -⟩
  · exact inlineBodyLike_of_isPlain h
  · rw [deref_of_soleName? hname htarget] at hbody
    rw [inlineBodyLike_of_soleName? hname htarget, hbody]
    rfl

theorem isBodyLike_inlineBodyLike (h : Resolves "#/parameters/" table param) :
    isBodyLike (inlineBodyLike table param) =
      isBodyLike (deref "#/parameters/" table param) := by
  cases hbody : isBodyLike (deref "#/parameters/" table param) with
  | true => rw [inlineBodyLike_eq_deref h hbody, hbody]
  | false =>
    rw [inlineBodyLike_eq_self h hbody]
    rcases h with h | ⟨name, hname, -⟩
    · rwa [deref_of_isPlain h] at hbody
    · exact isBodyLike_of_soleName? hname

end

variable {root fields : List (String × Json)} {param : Json}

/-- **The parts of bodies in a list** are those among the parameters that are meant. -/
theorem bodyLike_inlined (h : ParametersResolve root fields) :
    (inlined (objectAt "parameters" root) fields).filter isBodyLike =
      (meantParameters root fields).filter isBodyLike := by
  rw [inlined, meantParameters, List.filter_map, List.filter_map]
  have hsame : ∀ param ∈ itemsAt "parameters" fields,
      (isBodyLike ∘ inlineBodyLike (objectAt "parameters" root)) param =
        (isBodyLike ∘ deref "#/parameters/" (objectAt "parameters" root)) param :=
    fun param hmem => isBodyLike_inlineBodyLike (h param hmem)
  rw [List.filter_congr hsame]
  refine List.map_congr_left fun param hmem => ?_
  obtain ⟨hmem, hbody⟩ := List.mem_filter.1 hmem
  exact inlineBodyLike_eq_deref (h param hmem) hbody

theorem distinctKeys_deref (hroot : (Json.obj root).DistinctKeys) (hparam : param.DistinctKeys)
    (start key : String) : (deref start (objectAt key root) param).DistinctKeys := by
  rw [deref]
  cases htarget : (soleName? start param).bind fun name => Fields.get? name (objectAt key root) with
  | none => exact hparam
  | some target =>
    obtain ⟨name, -, hget⟩ := Option.bind_eq_some_iff.1 htarget
    exact (distinctKeys_objectAt hroot key).field (Fields.mem_of_get? hget)

/-- A parameter in place stays one. -/
theorem isPlain_parameter (hkeys : param.DistinctKeys) (h : IsPlain param) :
    IsPlain (parameter param) := by
  obtain ⟨fields, rfl, href⟩ := h.exists_obj
  obtain ⟨out, hout, -, hget⟩ := get?_parameter hkeys.keys href
  rw [hout, isPlain_obj_iff, ← Fields.get?_eq_none_iff, hget]
  simp [parameterAt, schemaKeys, Fields.get?_eq_none_iff.2 href]

/-- A reusable parameter proper is there in the normal shape. -/
theorem get?_normalParameters {name : String} {target : Json}
    (hroot : (Json.obj root).DistinctKeys) (hflags : (Json.obj root).Lacks "x-nullable")
    (htarget : Fields.get? name (objectAt "parameters" root) = some target)
    (hplain : IsPlain (parameter target)) (hbody : isBodyLike target = false) :
    (Fields.get? "parameters" (normalComponents root)).bind (Json.get? name) =
      some (move (parameter target)) := by
  have hnd := (distinctKeys_objectAt hroot "parameters").keys
  have hget : Fields.get? name (reusableProper root) = some (parameter target) := by
    rw [reusableProper, Fields.get?_mapValues, Fields.get?_filter _ hnd, htarget]
    simp [hbody]
  have hx : "x-nullable" ∉ Fields.keys (reusableProper root) := by
    rw [← Fields.get?_eq_none_iff, reusableProper, Fields.get?_mapValues, Fields.get?_filter _ hnd,
      Fields.get?_eq_none_iff.2 (lacks_objectAt hflags "parameters").keys]
    rfl
  have hne : ¬(reusableProper root).isEmpty = true := by
    intro hempty
    rw [List.isEmpty_iff.1 hempty] at hget
    cases hget
  obtain ⟨out, hout, -⟩ := hplain.exists_obj
  rw [get?_normalComponents, componentsAt, if_neg (by decide), if_pos rfl, if_neg hne,
    Option.map_some, moveAt_obj, move_obj, Option.bind_some, Json.get?_obj,
    get?_moveObject_of_notMem hx, hget, Option.map_some, hout, moveAt_obj]

/-- **A parameter proper comes to the one that is meant.** -/
theorem inline_parameter (hroot : (Json.obj root).DistinctKeys)
    (hflags : (Json.obj root).Lacks "x-nullable") (hparam : param.DistinctKeys)
    (h : Resolves "#/parameters/" (objectAt "parameters" root) param)
    (hbody : isBodyLike (deref "#/parameters/" (objectAt "parameters" root) param) = false) :
    Bundle.inline (normalComponents root) (move (parameter param)) =
      move (parameter (deref "#/parameters/" (objectAt "parameters" root) param)) := by
  have hplain := isPlain_parameter (distinctKeys_deref hroot hparam "#/parameters/" "parameters")
    h.isPlain_deref
  rcases h with h | ⟨name, hname, htilde, target, htarget, -⟩
  · rw [deref_of_isPlain h] at hplain ⊢
    exact inline_move_of_isPlain hplain
  · rw [deref_of_soleName? hname htarget] at hplain hbody ⊢
    have hpointer : parameter param = param := by
      rw [eq_of_soleName? hname]; rfl
    rw [hpointer]
    exact inline_move_of_soleName? (movePointer_parameters name) (by decide) hname htilde
      (get?_normalParameters hroot hflags htarget hplain hbody) (text?_move_of_isPlain hplain)

/-! ## Records -/

/-- The record of a parameter, read off the source; one elsewhere or without a name has
    none. -/
def paramRecord? (param : Json) : Option ParamRecord :=
  match (param.text? "in").bind ParamPlace.ofName?, param.text? "name" with
  | some place, some name =>
    if name = "" then none
    else
      some {
        name
        type := (Schema.ofType ((param.get? "type").bind DeclaredType.ofJson?)).valueType
        required := place = .path || isRequired param
        place }
  | _, _ => none

theorem paramRecord?_of_isBodyLike (h : isBodyLike param = true) : paramRecord? param = none := by
  simp only [isBodyLike, Bool.or_eq_true, decide_eq_true_eq] at h
  rw [paramRecord?]
  rcases h with h | h <;> rw [h] <;> rfl

theorem declaredType_move (value : Json) :
    DeclaredType.ofJson? (move value) = DeclaredType.ofJson? value := by
  cases value with
  | arr items =>
    rw [move_arr, DeclaredType.ofJson?, DeclaredType.ofJson?, List.mapM_map]
    exact congrArg (fun f => (items.mapM f).map DeclaredType.several) (funext str?_move)
  | _ => rfl

/-- What is read at a key that does not depend on pointers stays. -/
theorem bind_moveAt {α : Type} {key : String} {read : Json → Option α} (hkey : key ≠ "$ref")
    (hread : ∀ value, read (move value) = read value) (value : Option Json) :
    (value.map (moveAt key)).bind read = value.bind read := by
  rw [map_moveAt hkey, Option.bind_map]
  exact congrArg value.bind (funext hread)

theorem literal_move (value : Json) : Literal.ofJson? (move value) = Literal.ofJson? value := by
  cases value <;> rfl

theorem literals_move (value : Json) :
    Literal.listOfJson? (move value) = Literal.listOfJson? value := by
  cases value with
  | arr items =>
    rw [move_arr, Literal.listOfJson?, Literal.listOfJson?, List.mapM_map]
    exact congrArg items.mapM (funext literal_move)
  | _ => rfl

/-- The node that a type, a format, the elements of an array and an enumeration
    describe. -/
def describedNode (fields : List (String × Json)) : Schema :=
  { Schema.ofType ((Fields.get? "type" fields).bind DeclaredType.ofJson?) with
    format := (Fields.get? "format" fields).bind Json.str?
    items := (Fields.get? "items" fields).bind fun items => Schema.ofJson? (move items)
    literals := (Fields.get? "enum" fields).bind Literal.listOfJson? }

theorem valueType_describedNode (fields : List (String × Json)) :
    (describedNode fields).valueType =
      (Schema.ofType ((Fields.get? "type" fields).bind DeclaredType.ofJson?)).valueType :=
  Schema.valueType_ofType rfl rfl

/-- The keys of other things that a node may say. -/
def otherKeys : List String :=
  ["$ref", "properties", "required", "anyOf", "not", "nullable", "x-nullable"]

theorem notMem_schemaKeys : ∀ k ∈ otherKeys, k ∉ schemaKeys := by decide

/-- **A node that is described so is viewed so**, also once it is moved. -/
theorem ofFields_moved (hother : ∀ k ∈ otherKeys, Fields.get? k fields = none) :
    Schema.ofFields (moveObject (moveFields fields)) = describedNode fields := by
  have hx : "x-nullable" ∉ Fields.keys fields :=
    Fields.get?_eq_none_iff.1 (hother _ (by decide))
  have hget := get?_moveObject_of_notMem hx
  have hnone : ∀ k ∈ otherKeys, Fields.get? k (moveObject (moveFields fields)) = none := by
    intro k hk
    rw [hget, hother k hk]; rfl
  ext1
  · show (Fields.get? "type" _).bind DeclaredType.ofJson? = _
    rw [hget, bind_moveAt (by decide) declaredType_move]; rfl
  · show (Fields.get? "format" _).bind Json.str? = _
    rw [hget, bind_moveAt (by decide) str?_move]; rfl
  · show (Fields.get? "$ref" _).bind Json.str? = _
    rw [hnone _ (by decide)]; rfl
  · rw [Schema.properties_ofFields, hnone _ (by decide)]; rfl
  · show ((Fields.get? "required" _).map _).getD [] = _
    rw [hnone _ (by decide)]; rfl
  · rw [Schema.items_ofFields, hget, map_moveAt (by decide), Option.bind_map]; rfl
  · show (Fields.get? "enum" _).bind Literal.listOfJson? = _
    rw [hget, bind_moveAt (by decide) literals_move]; rfl
  · exact Schema.variants_ofFields (hnone _ (by decide))
  · show (Fields.get? "not" _).bind _ = _
    rw [hnone _ (by decide)]; rfl
  · show (Fields.get? "nullable" _).bind Json.bool? = _
    rw [hnone _ (by decide)]; rfl

/-- The type of a parameter is that of the schema which its keys are moved into. -/
theorem valueType_parameterAt (hschema : Fields.get? "schema" fields = none) :
    ((((parameterAt fields "schema").map (moveAt "schema")).bind Schema.ofJson?).map
        Schema.valueType).getD (.base .unknown) =
      (Schema.ofType ((Fields.get? "type" fields).bind DeclaredType.ofJson?)).valueType := by
  have hget := get?_select schemaKeys fields
  have htype : Fields.get? "type" (select schemaKeys fields) = Fields.get? "type" fields := by
    rw [hget, if_pos (by decide)]
  by_cases hempty : select schemaKeys fields = []
  · have hnone : parameterAt fields "schema" = none := by
      rw [parameterAt, if_neg (fun h => absurd h.1 (by decide)), if_neg (fun h => h.2 hempty),
        if_neg (by decide), hschema]
    rw [hnone, ← htype, hempty]
    rfl
  · have hsome : parameterAt fields "schema" = some (.obj (select schemaKeys fields)) := by
      simp [parameterAt, hempty]
    have hother : ∀ k ∈ otherKeys, Fields.get? k (select schemaKeys fields) = none :=
      fun k hk => (hget k).trans (if_neg (notMem_schemaKeys k hk))
    rw [hsome, Option.map_some, moveAt_obj, move_obj, Option.bind_some, Schema.ofJson?_obj,
      Option.map_some, Option.getD_some, ofFields_moved hother, valueType_describedNode, htype]

/-- **The record of a parameter in place** without a schema of its own. -/
theorem record?_parameter (hkeys : param.DistinctKeys) (hplain : IsPlain param)
    (hschema : param.get? "schema" = none) :
    (Parameter.ofJson? (move (parameter param))).bind Parameter.record? = paramRecord? param := by
  obtain ⟨fields, rfl, href⟩ := hplain.exists_obj
  obtain ⟨out, hout, hnd, hget⟩ := get?_parameter hkeys.keys href
  set moved := moveObject (moveFields out) with hmoved
  have hat : ∀ {k : String}, k ≠ "x-nullable" → k ≠ "nullable" →
      Fields.get? k moved = (parameterAt fields k).map (moveAt k) := by
    intro k hx hn
    rw [hmoved, get?_moveObject hnd hx hn, hget]
  have hname : Fields.read "name" Json.str? moved = (Json.obj fields).text? "name" := by
    rw [Fields.read, hat (by decide) (by decide), bind_moveAt (by decide) str?_move]
    rfl
  have hplace : Fields.read "in" Json.str? moved = (Json.obj fields).text? "in" := by
    rw [Fields.read, hat (by decide) (by decide), bind_moveAt (by decide) str?_move]
    rfl
  have hrequired : (Fields.read "required" Json.bool? moved).getD false =
      (decide ((Json.obj fields).text? "in" = some "path") || isRequired (.obj fields)) := by
    have hrequiredAt : parameterAt fields "required" =
        if (Json.obj fields).text? "in" = some "path" then some (.bool true)
        else (Json.obj fields).get? "required" := by
      show _ = if (Fields.get? "in" fields).bind Json.str? = some "path" then _
        else Fields.get? "required" fields
      simp [parameterAt, schemaKeys]
    rw [Fields.read, hat (by decide) (by decide), bind_moveAt (by decide) bool?_move, hrequiredAt,
      isRequired]
    split_ifs with hpath
    · simp [hpath, Json.bool?]
    · cases ((Json.obj fields).get? "required").bind Json.bool? with
      | none => simp [hpath]
      | some flag => cases flag <;> simp [hpath]
  have htype : ((Fields.read "schema" Schema.ofJson? moved).map Schema.valueType).getD
        (.base .unknown) =
      (Schema.ofType (((Json.obj fields).get? "type").bind DeclaredType.ofJson?)).valueType := by
    rw [Fields.read, hat (by decide) (by decide)]
    exact valueType_parameterAt hschema
  have hview : Parameter.ofJson? (move (parameter (.obj fields))) = some {
      name := ((Json.obj fields).text? "name").getD ""
      place := ((Json.obj fields).text? "in").getD ""
      required := decide ((Json.obj fields).text? "in" = some "path") || isRequired (.obj fields)
      schema := Fields.read "schema" Schema.ofJson? moved } := by
    rw [hout, move_obj, ← hrequired, ← hname, ← hplace]
    rfl
  rw [hview, Option.bind_some, Parameter.record?, paramRecord?]
  simp only [htype]
  cases (Json.obj fields).text? "in" with
  | none => rfl
  | some word =>
    cases hplaceOf : ParamPlace.ofName? word with
    | none => simp [hplaceOf]
    | some place =>
      cases (Json.obj fields).text? "name" with
      | none => simp [hplaceOf]
      | some name => simp [hplaceOf, ParamPlace.eq_path_iff hplaceOf]

/-! ## The parameters of an operation -/

/-- The parameters of a path item or an operation as the older dialect has them: each of
    them resolves, and only those that are part of a body have a schema. -/
structure OldParameters (root fields : List (String × Json)) : Prop where
  resolve : ParametersResolve root fields
  schemaless : ∀ param ∈ meantParameters root fields, isBodyLike param = false →
    param.get? "schema" = none

instance (root fields : List (String × Json)) : Decidable (OldParameters root fields) :=
  decidable_of_iff (ParametersResolve root fields ∧ ∀ param ∈ meantParameters root fields,
      isBodyLike param = false → param.get? "schema" = none)
    ⟨fun h => ⟨h.1, h.2⟩, fun h => ⟨h.resolve, h.schemaless⟩⟩

/-- **The records of a list of parameters** are those of the parameters that are meant. -/
theorem records_proper (hroot : (Json.obj root).DistinctKeys)
    (hflags : (Json.obj root).Lacks "x-nullable") (hfields : (Json.obj fields).DistinctKeys)
    (h : OldParameters root fields) :
    ((((inlined (objectAt "parameters" root) fields).filter fun param =>
          !isBodyLike param).map parameter).filterMap fun param =>
        Parameter.ofJson? (Bundle.inline (normalComponents root) (move param))).filterMap
      Parameter.record? = (meantParameters root fields).filterMap paramRecord? := by
  rw [inlined, meantParameters, List.filterMap_filterMap, List.filterMap_map, List.filterMap_filter,
    List.filterMap_map, List.filterMap_map]
  refine List.filterMap_congr fun param hmem => ?_
  have hresolve := h.resolve param hmem
  have hkeys := distinctKeys_itemsAt hfields hmem
  simp only [Function.comp]
  cases hbody : isBodyLike (deref "#/parameters/" (objectAt "parameters" root) param) with
  | true =>
    rw [isBodyLike_inlineBodyLike hresolve, hbody, paramRecord?_of_isBodyLike hbody]
    rfl
  | false =>
    rw [isBodyLike_inlineBodyLike hresolve, hbody, inlineBodyLike_eq_self hresolve hbody,
      inline_parameter hroot hflags hkeys hresolve hbody]
    exact record?_parameter (distinctKeys_deref hroot hkeys _ _) hresolve.isPlain_deref
      (h.schemaless _ (List.mem_map_of_mem hmem) hbody)

/-- **The parameters of an old operation.**  Those of the path come before its own; of
    those with the same name and place the last one stays, in the path always as a
    required one. -/
theorem params_of_source {item op : List (String × Json)} {path : String} {m : Method}
    (h : OldOperation root path m item op) (hshared : OldParameters root item)
    (hown : OldParameters root op) (origin : String) :
    ∃ document record, (Json.obj root).document? origin = some document ∧
      document.digest.operationAt? path m = some record ∧
      let params := ParamRecord.lasts
        ((meantParameters root item ++ meantParameters root op).filterMap paramRecord?)
      record.pathParams = ParamRecord.at .path params ∧
        record.queryParams = ParamRecord.at .query params := by
  obtain ⟨record, hrecord, heq, -⟩ := h.record_at
  refine ⟨_, record, h.document?_eq origin, hrecord, ?_⟩
  have hmerged : mergeParameters (viewItem root item).parameters
      (viewOperation root item op).parameters =
      ParamRecord.lasts
        ((meantParameters root item ++ meantParameters root op).filterMap paramRecord?) := by
    -- what is part of a body of the path is no parameter proper of the operation
    have hproper : (operationInputs root item op).parameters =
        ((inlined (objectAt "parameters" root) op).filter fun param => !isBodyLike param).map
          parameter := by
      rw [operationInputs, inputsOf, ofList_eq, List.filter_append, sharedBody, List.filter_filter]
      simp
    rw [mergeParameters_eq, parameters_viewItem h.distinct_item.keys,
      parameters_viewOperation h.distinct_op.keys, hproper, List.filterMap_append,
      List.filterMap_append, sharedProper,
      records_proper h.distinct h.flagless h.distinct_item hshared,
      records_proper h.distinct h.flagless h.distinct_op hown]
  have hpath := congrArg OperationRecord.pathParams heq
  have hquery := congrArg OperationRecord.queryParams heq
  rw [Visit.pathParams_record, viewVisit_shared, viewVisit_operation, hmerged] at hpath
  rw [Visit.queryParams_record, viewVisit_shared, viewVisit_operation, hmerged] at hquery
  exact ⟨hpath, hquery⟩

/-- An operation whose parameter replaces one of its path, which is reusable, and whose
    body is reusable. -/
def booksPost : List (String × Json) := [("parameters", .arr [
  .obj [("$ref", .str "#/parameters/draft")],
  .obj [("name", .str "limit"), ("in", .str "query"), ("type", .str "boolean"),
    ("required", .bool true)],
  .obj [("name", .str "trace"), ("in", .str "header"), ("type", .str "string")]])]

/-- The path item of that operation. -/
def booksItem : List (String × Json) := [
  ("parameters", .arr [
    .obj [("$ref", .str "#/parameters/limit")],
    .obj [("name", .str "id"), ("in", .str "path"), ("type", .str "string")]]),
  ("post", .obj booksPost)]

/-- A document with that path item. -/
def books : List (String × Json) := [
  ("swagger", .str "2.0"),
  ("parameters", .obj [
    ("limit", .obj [("name", .str "limit"), ("in", .str "query"), ("type", .str "integer")]),
    ("draft", .obj [("name", .str "draft"), ("in", .str "body"), ("schema", .obj [])])]),
  ("paths", .obj [("/books/\x7bid\x7d", .obj booksItem)])]

theorem params_of_source_books :
    OldOperation books "/books/\x7bid\x7d" .post booksItem booksPost ∧
      OldParameters books booksItem ∧ OldParameters books booksPost ∧
      ∃ document record, (Json.obj books).document? "books.json" = some document ∧
        document.digest.operationAt? "/books/\x7bid\x7d" .post = some record ∧
        record.pathParams = [⟨"id", .base .string, true, .path⟩] ∧
        record.queryParams = [⟨"limit", .base .boolean, true, .query⟩] := by
  have hbooks : OldOperation books "/books/\x7bid\x7d" .post booksItem booksPost :=
    ⟨⟨by decide +kernel, by decide +kernel, by decide +kernel⟩, rfl, rfl⟩
  have hshared : OldParameters books booksItem := by decide +kernel
  have hown : OldParameters books booksPost := by decide +kernel
  obtain ⟨document, record, hdocument, hrecord, hpath, hquery⟩ :=
    params_of_source hbooks hshared hown "books.json"
  exact ⟨hbooks, hshared, hown, document, record, hdocument, hrecord,
    hpath.trans (by decide +kernel), hquery.trans (by decide +kernel)⟩

end Upgrade
end ApiDigest
