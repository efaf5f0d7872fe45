/-
  What the parts of an old document hold once they are upgraded.

  One statement per part says what every key of it holds afterwards; the order of
  the fields is left open.

  * `Upgrade.get?_parameter`, `Upgrade.get?_response`, `Upgrade.get?_operation` and
    `Upgrade.get?_pathItem` are those statements;
  * `Upgrade.ofList_eq` says what a list of parameters comes to: the parameters
    proper, the last body, and the fields of a form;
  * `Upgrade.get?_components` is the same statement for the reusable parts.
-/
import ApiDigest.Proofs.Lookup
import ApiDigest.Upgrade

namespace ApiDigest.Upgrade

variable {fields : List (String × Json)}

/-! ## Parameters -/

/-- The fields of a parameter with those that describe its value moved into a schema. -/
def typed (fields : List (String × Json)) : List (String × Json) :=
  let rest := eraseAll ("collectionFormat" :: schemaKeys) fields
  if (select schemaKeys fields).isEmpty then rest
  else Fields.insert "schema" (.obj (select schemaKeys fields)) rest

theorem nodup_keys_typed (hnd : (Fields.keys fields).Nodup) :
    (Fields.keys (typed fields)).Nodup := by
  have hrest := nodup_keys_eraseAll ("collectionFormat" :: schemaKeys) hnd
  simp only [typed]
  split_ifs
  · exact hrest
  · exact Fields.nodup_keys_insert _ _ hrest

theorem get?_typed (hnd : (Fields.keys fields).Nodup) (k : String) :
    Fields.get? k (typed fields) =
      if k = "schema" ∧ select schemaKeys fields ≠ [] then some (.obj (select schemaKeys fields))
      else if k ∈ "collectionFormat" :: schemaKeys then none else Fields.get? k fields := by
  have hrest := get?_eraseAll ("collectionFormat" :: schemaKeys) hnd k
  simp only [typed, List.isEmpty_iff]
  by_cases hempty : select schemaKeys fields = []
  · simp [hempty, hrest]
  · by_cases hk : k = "schema"
    · simp [hempty, Fields.get?_insert, hk]
    · simp [hempty, Fields.get?_insert, hk, hrest]

/-- What a key of a parameter holds once it is upgraded. -/
def parameterAt (fields : List (String × Json)) (key : String) : Option Json :=
  if key = "required" ∧ (Fields.get? "in" fields).bind Json.str? = some "path" then
    some (.bool true)
  else if key = "schema" ∧ select schemaKeys fields ≠ [] then some (.obj (select schemaKeys fields))
  else if key ∈ "collectionFormat" :: schemaKeys then none
  else Fields.get? key fields

/-- **What a parameter in place holds.** -/
theorem get?_parameter (hnd : (Fields.keys fields).Nodup) (href : "$ref" ∉ Fields.keys fields) :
    ∃ out, parameter (.obj fields) = .obj out ∧ (Fields.keys out).Nodup ∧
      ∀ k, Fields.get? k out = parameterAt fields k := by
  have hparameter : parameter (.obj fields) =
      if (Fields.get? "in" (typed fields)).bind Json.str? = some "path" then
        .obj (Fields.insert "required" (.bool true) (typed fields))
      else .obj (typed fields) := by
    rw [parameter, if_neg (Bool.eq_false_iff.1 (Fields.contains_eq_false_iff.2 href))]; rfl
  have hin : Fields.get? "in" (typed fields) = Fields.get? "in" fields := by
    rw [get?_typed hnd]; simp [schemaKeys]
  rw [hparameter, hin]
  have hndTyped := nodup_keys_typed hnd
  by_cases hpath : (Fields.get? "in" fields).bind Json.str? = some "path"
  · refine ⟨_, if_pos hpath, Fields.nodup_keys_insert _ _ hndTyped, fun k => ?_⟩
    rw [Fields.get?_insert, get?_typed hnd, parameterAt]
    by_cases hk : k = "required" <;> simp only [hk, hpath, true_and, false_and, if_true, if_false]
  · refine ⟨_, if_neg hpath, hndTyped, fun k => ?_⟩
    rw [get?_typed hnd, parameterAt, if_neg (c := k = "required" ∧ _) (fun h => hpath h.2)]

/-! ## Responses -/

/-- What a key of a response holds once it is upgraded. -/
def responseAt (produces : List String) (fields : List (String × Json)) (key : String) :
    Option Json :=
  if key = "content" then
    ((Fields.get? "schema" fields).map (content (responseMediaType produces))).or
      (Fields.get? "content" fields)
  else if key = "schema" ∨ key = "examples" then none
  else if key = "description" then some ((Fields.get? "description" fields).getD (.str ""))
  else Fields.get? key fields

/-- The fields of a response with its schema moved into its content. -/
def filled (produces : List String) (fields : List (String × Json)) : List (String × Json) :=
  match Fields.take "schema" fields with
  | (some schema, rest) =>
    Fields.insert "content" (content (responseMediaType produces) schema) rest
  | (none, rest) => rest

theorem nodup_keys_filled (produces : List String) (hnd : (Fields.keys fields).Nodup) :
    (Fields.keys (filled produces fields)).Nodup := by
  have herase := Fields.nodup_keys_erase "schema" hnd
  rw [filled, Fields.take]
  cases Fields.get? "schema" fields with
  | none => exact herase
  | some schema => exact Fields.nodup_keys_insert _ _ herase

theorem get?_filled (produces : List String) (hnd : (Fields.keys fields).Nodup) (k : String) :
    Fields.get? k (filled produces fields) =
      if k = "content" then
        ((Fields.get? "schema" fields).map (content (responseMediaType produces))).or
          (Fields.get? "content" fields)
      else if k = "schema" then none else Fields.get? k fields := by
  have herase := Fields.get?_erase "schema" hnd k
  rw [filled, Fields.take]
  cases Fields.get? "schema" fields with
  | none =>
    rw [herase]
    by_cases hk : k = "content" <;> simp [hk]
  | some schema =>
    show Fields.get? k (Fields.insert _ _ _) = _
    rw [Fields.get?_insert, herase]
    by_cases hk : k = "content" <;> simp [hk]

/-- **What a response in place holds.** -/
theorem get?_response (produces : List String) (hnd : (Fields.keys fields).Nodup)
    (href : "$ref" ∉ Fields.keys fields) :
    ∃ out, response produces (.obj fields) = .obj out ∧ (Fields.keys out).Nodup ∧
      ∀ k, Fields.get? k out = responseAt produces fields k := by
  set bare := Fields.erase "examples" (filled produces fields) with hbare
  have hndBare : (Fields.keys bare).Nodup :=
    Fields.nodup_keys_erase "examples" (nodup_keys_filled produces hnd)
  have hget : ∀ k, Fields.get? k bare =
      if k = "examples" then none else Fields.get? k (filled produces fields) :=
    Fields.get?_erase "examples" (nodup_keys_filled produces hnd)
  have hdescription : Fields.get? "description" bare = Fields.get? "description" fields := by
    rw [hget, get?_filled produces hnd]; simp
  have hresponse : response produces (.obj fields) =
      .obj (if (Fields.get? "description" fields).isSome then bare
        else Fields.insert "description" (.str "") bare) := by
    rw [← hdescription, response,
      if_neg (Bool.eq_false_iff.1 (Fields.contains_eq_false_iff.2 href))]
    rfl
  refine ⟨_, hresponse, ?_, fun k => ?_⟩
  · split_ifs
    · exact hndBare
    · exact Fields.nodup_keys_insert _ _ hndBare
  · rw [responseAt]
    by_cases hk : k = "description"
    · subst hk
      cases hd : Fields.get? "description" fields <;>
        simp [Fields.get?_insert, hdescription, hd]
    · have hrest : Fields.get? k (if (Fields.get? "description" fields).isSome then bare
          else Fields.insert "description" (.str "") bare) = Fields.get? k bare := by
        split_ifs
        · rfl
        · rw [Fields.get?_insert, if_neg hk]
      rw [hrest, hget, get?_filled produces hnd]
      by_cases hx : k = "examples"
      · subst hx; simp
      · simp [hk, hx]

/-! ## Lists of parameters -/

variable {params : List Json} {param : Json} {inputs : Inputs}

/-- Whether a parameter is a body. -/
def isBody (param : Json) : Bool := param.text? "in" = some "body"

/-- Whether a parameter is a field of a form. -/
def isForm (param : Json) : Bool := param.text? "in" = some "formData"

theorem isBodyLike_eq (param : Json) : isBodyLike param = (isBody param || isForm param) := rfl

theorem isForm_of_isBody (h : isBody param = true) : isForm param = false := by
  simp only [isBody, decide_eq_true_eq] at h
  simp [isForm, h]

theorem add_of_isBody (h : isBody param = true) :
    inputs.add param = { inputs with body := some (bodyOf param) } := by
  simp only [isBody, decide_eq_true_eq] at h
  simp [Inputs.add, h]

theorem add_of_isForm (h : isForm param = true) :
    inputs.add param = { inputs with form := inputs.form.add param } := by
  simp only [isForm, decide_eq_true_eq] at h
  simp [Inputs.add, h]

theorem add_of_isBodyLike_eq_false (h : isBodyLike param = false) :
    inputs.add param = { inputs with parameters := inputs.parameters ++ [parameter param] } := by
  simp only [isBodyLike, Bool.or_eq_false_iff, decide_eq_false_iff_not] at h
  unfold Inputs.add
  split
  · exact absurd ‹_› h.1
  · exact absurd ‹_› h.2
  · rfl

/-- **What a list of parameters comes to**: the parameters proper, the last body, and
    the fields of a form. -/
theorem foldl_add (params : List Json) (inputs : Inputs) :
    params.foldl Inputs.add inputs =
      { parameters := inputs.parameters ++
          (params.filter fun param => !isBodyLike param).map parameter
        body := ((params.filter isBody).getLast?.map bodyOf).or inputs.body
        form := (params.filter isForm).foldl Form.add inputs.form } := by
  induction params generalizing inputs with
  | nil => simp
  | cons param rest ih =>
    rw [List.foldl_cons, ih]
    by_cases hbody : isBody param = true
    · have hform := isForm_of_isBody hbody
      rw [add_of_isBody hbody]
      cases hlast : (rest.filter isBody).getLast? <;>
        simp [isBodyLike_eq, hbody, hform, List.getLast?_cons, hlast]
    · by_cases hform : isForm param = true
      · rw [add_of_isForm hform]
        simp [isBodyLike_eq, hbody, hform]
      · have hneither : isBodyLike param = false := by simp [isBodyLike_eq, hbody, hform]
        rw [add_of_isBodyLike_eq_false hneither]
        simp [hneither, hbody, hform]

theorem ofList_eq (params : List Json) : Inputs.ofList params =
    { parameters := (params.filter fun param => !isBodyLike param).map parameter
      body := (params.filter isBody).getLast?.map bodyOf
      form := (params.filter isForm).foldl Form.add .empty } := by
  rw [Inputs.ofList, foldl_add]
  simp

/-! ## Operations -/

/-- The array at a key with the pointers to parts of bodies replaced. -/
def inlined (reusable fields : List (String × Json)) : List Json :=
  (itemsAt "parameters" fields).map (inlineBodyLike reusable)

/-- What the parameters of an operation come to. -/
def inputsOf (sharedBody : List Json) (reusable fields : List (String × Json)) : Inputs :=
  Inputs.ofList (sharedBody ++ inlined reusable fields)

/-- The media types of an operation's responses. -/
def producesOf (documentProduces : List String) (fields : List (String × Json)) : List String :=
  if (texts "produces" fields).isEmpty then documentProduces else texts "produces" fields

/-- What a key of an operation holds once it is upgraded. -/
def operationAt (sharedBody : List Json) (reusable : List (String × Json))
    (documentProduces : List String) (fields : List (String × Json)) (key : String) :
    Option Json :=
  let inputs := inputsOf sharedBody reusable fields
  if key = "responses" then
    ((Fields.get? "responses" fields).bind Json.fields?).map fun responses =>
      .obj (Fields.mapValues (response (producesOf documentProduces fields)) responses)
  else if key = "requestBody" then
    (inputs.body.or inputs.form.body?).or (Fields.get? "requestBody" fields)
  else if key = "parameters" then someItems inputs.parameters
  else if key ∈ ["produces", "consumes", "schemes"] then none
  else Fields.get? key fields

theorem nodup_keys_insertSome {key : String} (value : Option Json)
    (hnd : (Fields.keys fields).Nodup) : (Fields.keys (insertSome key value fields)).Nodup := by
  cases value with
  | none => exact hnd
  | some value => exact Fields.nodup_keys_insert _ _ hnd

theorem get?_insertSome (key : String) (value : Option Json) (fields : List (String × Json))
    (k : String) : Fields.get? k (insertSome key value fields) =
      if k = key then value.or (Fields.get? k fields) else Fields.get? k fields := by
  cases value with
  | none => simp [insertSome]
  | some value => simp [insertSome, Fields.get?_insert]

/-- **What an operation holds.** -/
theorem get?_operation (sharedBody : List Json) (reusable : List (String × Json))
    (documentProduces : List String) (hnd : (Fields.keys fields).Nodup) :
    (Fields.keys (operation sharedBody reusable documentProduces fields)).Nodup ∧
      ∀ k, Fields.get? k (operation sharedBody reusable documentProduces fields) =
        operationAt sharedBody reusable documentProduces fields k := by
  set inputs := inputsOf sharedBody reusable fields with hinputs
  set bare := eraseAll ["produces", "consumes", "schemes", "parameters"] fields with hbare
  set proper := insertSome "parameters" (someItems inputs.parameters) bare with hproper
  set full := insertSome "requestBody" (inputs.body.or inputs.form.body?) proper with hfull
  have hndFull : (Fields.keys full).Nodup :=
    nodup_keys_insertSome _ (nodup_keys_insertSome _ (nodup_keys_eraseAll _ hnd))
  have hget : ∀ k, Fields.get? k full =
      if k = "requestBody" then
        (inputs.body.or inputs.form.body?).or (Fields.get? "requestBody" fields)
      else if k = "parameters" then someItems inputs.parameters
      else if k ∈ ["produces", "consumes", "schemes"] then none
      else Fields.get? k fields := by
    intro k
    rw [hfull, get?_insertSome, hproper, get?_insertSome, hbare, get?_eraseAll _ hnd]
    by_cases hbody : k = "requestBody"
    · subst hbody; simp
    · by_cases hparams : k = "parameters"
      · subst hparams; simp
      · simp [hbody, hparams]
  have hresponses : Fields.get? "responses" full = Fields.get? "responses" fields := by
    rw [hget]; simp
  have hndErase := Fields.nodup_keys_erase "responses" hndFull
  have hgetErase := Fields.get?_erase "responses" hndFull
  have hoperation : operation sharedBody reusable documentProduces fields =
      match (Fields.get? "responses" fields).bind Json.fields? with
      | some responses => Fields.insert "responses" (Json.obj (Fields.mapValues
          (response (producesOf documentProduces fields)) responses))
            (Fields.erase "responses" full)
      | none => Fields.erase "responses" full := by
    rw [← hresponses, operation]
    split
    · rename_i responses rest htake
      change (Fields.get? "responses" full, Fields.erase "responses" full) = _ at htake
      obtain ⟨hvalue, rfl⟩ := Prod.mk.inj htake
      rw [hvalue]
      rfl
    · rename_i value rest hother htake
      change (Fields.get? "responses" full, Fields.erase "responses" full) = _ at htake
      obtain ⟨rfl, rfl⟩ := Prod.mk.inj htake
      cases hvalue : Fields.get? "responses" full with
      | none => rfl
      | some value =>
        cases value with
        | obj responses => exact absurd hvalue (hother responses)
        | _ => rfl
  rw [hoperation]
  cases hobject : (Fields.get? "responses" fields).bind Json.fields? with
  | none =>
    refine ⟨hndErase, fun k => ?_⟩
    show Fields.get? k (Fields.erase "responses" full) = _
    rw [hgetErase, hget, operationAt, hobject]
    by_cases hk : k = "responses" <;> simp [hk, ← hinputs]
  | some responses =>
    refine ⟨Fields.nodup_keys_insert _ _ hndErase, fun k => ?_⟩
    show Fields.get? k (Fields.insert _ _ _) = _
    rw [Fields.get?_insert, hgetErase, hget, operationAt, hobject]
    by_cases hk : k = "responses" <;> simp [hk, ← hinputs]

/-! ## Path items -/

/-- The parameters of a path that are part of a body. -/
def sharedBody (reusable fields : List (String × Json)) : List Json :=
  (inlined reusable fields).filter isBodyLike

/-- The other parameters of a path, upgraded. -/
def sharedProper (reusable fields : List (String × Json)) : List Json :=
  ((inlined reusable fields).filter fun param => !isBodyLike param).map parameter

theorem pathItem_eq (reusable : List (String × Json)) (documentProduces : List String)
    (fields : List (String × Json)) : pathItem reusable documentProduces fields =
      ((someItems (sharedProper reusable fields)).map fun items => ("parameters", items)).toList ++
        (Fields.erase "parameters" fields).filterMap
          (pathItemField? (sharedBody reusable fields) reusable documentProduces) := by
  rw [pathItem, List.partition_eq_filter_filter]
  rfl

theorem pathItemField?_keeps (sharedBody : List Json) (reusable : List (String × Json))
    (documentProduces : List String) (field out : String × Json)
    (h : pathItemField? sharedBody reusable documentProduces field = some out) :
    out.1 = field.1 := by
  rw [pathItemField?] at h
  split_ifs at h
  · obtain ⟨op, -, rfl⟩ := Option.map_eq_some_iff.1 h
    rfl
  · cases h; rfl

/-- What a key of a path item holds once it is upgraded. -/
def pathItemAt (reusable : List (String × Json)) (documentProduces : List String)
    (fields : List (String × Json)) (key : String) : Option Json :=
  if key = "parameters" then someItems (sharedProper reusable fields)
  else if key ∈ methods then
    ((Fields.get? key fields).bind Json.fields?).map fun op =>
      .obj (operation (sharedBody reusable fields) reusable documentProduces op)
  else Fields.get? key fields

/-- **What a path item holds.** -/
theorem get?_pathItem (reusable : List (String × Json)) (documentProduces : List String)
    (hnd : (Fields.keys fields).Nodup) :
    (Fields.keys (pathItem reusable documentProduces fields)).Nodup ∧
      ∀ k, Fields.get? k (pathItem reusable documentProduces fields) =
        pathItemAt reusable documentProduces fields k := by
  have hndErase := Fields.nodup_keys_erase "parameters" hnd
  have hkeeps := pathItemField?_keeps (sharedBody reusable fields) reusable documentProduces
  set others := (Fields.erase "parameters" fields).filterMap
    (pathItemField? (sharedBody reusable fields) reusable documentProduces) with hothers
  have hgetOthers : ∀ k, Fields.get? k others = if k = "parameters" then none
      else pathItemAt reusable documentProduces fields k := by
    intro k
    rw [hothers, Fields.get?_filterMap hkeeps hndErase, Fields.get?_erase _ hnd, pathItemAt]
    by_cases hk : k = "parameters"
    · simp [hk]
    · by_cases hm : k ∈ methods
      · cases hget : Fields.get? k fields with
        | none => simp [hk]
        | some value => cases hv : value.fields? <;> simp [hk, hm, pathItemField?, hv]
      · cases hget : Fields.get? k fields <;> simp [hk, hm, pathItemField?]
  have hnotin : "parameters" ∉ Fields.keys others := by
    rw [← Fields.get?_eq_none_iff, hgetOthers, if_pos rfl]
  have hndOthers : (Fields.keys others).Nodup :=
    hndErase.sublist (Fields.keys_filterMap_sublist hkeeps _)
  rw [pathItem_eq, ← hothers]
  cases hparams : someItems (sharedProper reusable fields) with
  | none =>
    refine ⟨hndOthers, fun k => ?_⟩
    show Fields.get? k others = _
    rw [hgetOthers]
    split_ifs with hk
    · rw [pathItemAt, if_pos hk, hparams]
    · rfl
  | some items =>
    refine ⟨List.nodup_cons.2 ⟨hnotin, hndOthers⟩, fun k => ?_⟩
    show Fields.get? k (("parameters", items) :: others) = _
    rw [Fields.get?_cons, hgetOthers, pathItemAt, hparams]
    by_cases hk : k = "parameters"
    · simp [hk]
    · simp [hk, Ne.symm hk]

/-! ## Components -/

/-- The reusable parameters proper, upgraded. -/
def reusableProper (fields : List (String × Json)) : List (String × Json) :=
  Fields.mapValues parameter ((objectAt "parameters" fields).filter fun entry =>
    !isBodyLike entry.2)

/-- What a key of the components holds. -/
def componentsAt (fields : List (String × Json)) (key : String) : Option Json :=
  if key = "schemas" then Fields.get? "definitions" fields
  else if key = "parameters" then
    if (reusableProper fields).isEmpty then none else some (.obj (reusableProper fields))
  else if key = "responses" then
    ((Fields.get? "responses" fields).bind Json.fields?).map fun entries =>
      .obj (Fields.mapValues (response (texts "produces" fields)) entries)
  else if key = "securitySchemes" then Fields.get? "securityDefinitions" fields
  else none

/-- A field for an optional value. -/
theorem get?_optional (key : String) (value : Option Json) (k : String) :
    Fields.get? k (value.map fun value => (key, value)).toList =
      if k = key then value else none := by
  cases value with
  | none => simp
  | some value => by_cases h : k = key <;> simp [Fields.get?_cons, h, Ne.symm]

/-- **What the components hold.** -/
theorem get?_components (fields : List (String × Json)) (k : String) :
    Fields.get? k (components fields) = componentsAt fields k := by
  simp only [components, Fields.get?_append, get?_optional, componentsAt, reusableProper]
  by_cases h₁ : k = "schemas"
  · subst h₁; simp
  · by_cases h₂ : k = "parameters"
    · subst h₂; simp
    · by_cases h₃ : k = "responses"
      · subst h₃; simp
      · simp [h₁, h₂, h₃]

end ApiDigest.Upgrade
