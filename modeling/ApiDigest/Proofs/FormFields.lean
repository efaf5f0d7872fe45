/-
  Fields of a form that are declared more than once.

  A path may declare a field of a form that an operation declares again.  The property of
  the form is that of the last declaration.  The list of the required names and the media
  type remember every declaration, though, so they agree with the properties only as long
  as no later declaration takes something back.

  * `Upgrade.lastNamed` is the declaration of a name that counts;
  * `Upgrade.OverridesByName` says of a body that nothing but these declarations counts;
  * `Upgrade.InStep` says of the declarations that the later ones take nothing back, and
    `Upgrade.followsLast_formOf_iff` that just then nothing else counts in their form;
  * `Upgrade.requestBody_form_iff` is the same of the body of an operation.
-/
import ApiDigest.Proofs.Serialized
import ApiDigest.Proofs.UpgradedBodies

namespace ApiDigest.Upgrade

variable {entries : List (String × Json)} {name : String} {param body : Json}

/-! ## Declarations that count -/

/-- The last declaration of a name. -/
def lastNamed (entries : List (String × Json)) (name : String) : Option Json :=
  Fields.get? name entries.reverse

/-- Only the last declaration of each name counts in the form: there is one property per
    name, described by it; the required names are those it requires, each once; and the
    form has a file if it is one. -/
structure Form.FollowsLast (form : Form) (entries : List (String × Json)) : Prop where
  nodup_keys : (Fields.keys form.properties).Nodup
  properties : ∀ name, Fields.get? name form.properties =
    (lastNamed entries name).map Form.schemaOf
  nodup_required : form.required.Nodup
  required : ∀ name, name ∈ form.required ↔ (lastNamed entries name).any isRequired = true
  multipart : form.multipart = true ↔ ∃ name, (lastNamed entries name).any Form.isFile = true

/-- The body is that of such a form: an object schema with these properties and required
    names, as a form in several parts just if it has a file. -/
def OverridesByName (entries : List (String × Json)) (body : Json) : Prop :=
  ∃ form : Form, form.body? = some body ∧ form.FollowsLast entries

/-- No name is declared as required twice or declared so and then not so, and if some
    declaration is a file, then so is the last one of some name. -/
structure InStep (entries : List (String × Json)) : Prop where
  once : (requiredNames entries).Nodup
  required : ∀ entry ∈ entries, isRequired entry.2 = true →
    (lastNamed entries entry.1).any isRequired = true
  file : ∀ entry ∈ entries, Form.isFile entry.2 = true →
    ∃ other ∈ entries, (lastNamed entries other.1).any Form.isFile = true

instance (entries : List (String × Json)) : Decidable (InStep entries) :=
  decidable_of_iff ((requiredNames entries).Nodup ∧
      (∀ entry ∈ entries, isRequired entry.2 = true →
        (lastNamed entries entry.1).any isRequired = true) ∧
      ∀ entry ∈ entries, Form.isFile entry.2 = true →
        ∃ other ∈ entries, (lastNamed entries other.1).any Form.isFile = true)
    ⟨fun h => ⟨h.1, h.2.1, h.2.2⟩, fun h => ⟨h.once, h.required, h.file⟩⟩

theorem mem_of_lastNamed (h : lastNamed entries name = some param) : (name, param) ∈ entries :=
  List.mem_reverse.1 (Fields.mem_of_get? h)

theorem exists_of_any_lastNamed {p : Json → Bool} (h : (lastNamed entries name).any p = true) :
    ∃ entry ∈ entries, entry.1 = name ∧ p entry.2 = true := by
  obtain ⟨param, hparam, hp⟩ := (Option.any_eq_true _ _).1 h
  exact ⟨(name, param), mem_of_lastNamed hparam, rfl, hp⟩

theorem mem_requiredNames_iff :
    name ∈ requiredNames entries ↔ ∃ entry ∈ entries, entry.1 = name ∧ isRequired entry.2 = true := by
  simp only [requiredNames, Fields.keys, List.mem_map, List.mem_filter]
  constructor
  · rintro ⟨entry, ⟨hmem, hrequired⟩, rfl⟩
    exact ⟨entry, hmem, rfl, hrequired⟩
  · rintro ⟨entry, hmem, rfl, hrequired⟩
    exact ⟨entry, ⟨hmem, hrequired⟩, rfl⟩

theorem multipart_formOf_iff :
    (formOf entries).multipart = true ↔ ∃ entry ∈ entries, Form.isFile entry.2 = true :=
  List.any_eq_true

/-! ## Forms that follow the last declarations -/

/-- One property per name, described by its last declaration. -/
theorem get?_properties_formOf (entries : List (String × Json)) (name : String) :
    Fields.get? name (formOf entries).properties =
      (lastNamed entries name).map Form.schemaOf := by
  have hreverse : (Fields.mapValues Form.schemaOf entries).reverse =
      Fields.mapValues Form.schemaOf entries.reverse := List.map_reverse.symm
  rw [formOf, Fields.get?_ofList, hreverse, Fields.get?_mapValues, lastNamed]

/-- **A form follows the last declarations** exactly if the later ones take nothing back. -/
theorem followsLast_formOf_iff : (formOf entries).FollowsLast entries ↔ InStep entries := by
  constructor
  · rintro ⟨-, -, honce, hrequired, hfile⟩
    refine ⟨honce, fun entry hmem hentry => ?_, fun entry hmem hentry => ?_⟩
    · exact (hrequired entry.1).1 (mem_requiredNames_iff.2 ⟨entry, hmem, rfl, hentry⟩)
    · obtain ⟨name, hname⟩ := hfile.1 (multipart_formOf_iff.2 ⟨entry, hmem, hentry⟩)
      obtain ⟨other, hother, rfl, -⟩ := exists_of_any_lastNamed hname
      exact ⟨other, hother, hname⟩
  · intro h
    refine ⟨Fields.nodup_keys_ofList _, get?_properties_formOf entries, h.once, fun name => ?_, ?_⟩
    · constructor
      · intro hname
        obtain ⟨entry, hmem, rfl, hentry⟩ := mem_requiredNames_iff.1 hname
        exact h.required entry hmem hentry
      · intro hname
        exact mem_requiredNames_iff.2 (exists_of_any_lastNamed hname)
    · rw [multipart_formOf_iff]
      constructor
      · rintro ⟨entry, hmem, hentry⟩
        obtain ⟨other, -, hother⟩ := h.file entry hmem hentry
        exact ⟨other.1, hother⟩
      · rintro ⟨name, hname⟩
        obtain ⟨entry, hmem, -, hentry⟩ := exists_of_any_lastNamed hname
        exact ⟨entry, hmem, hentry⟩

/-! ## Bodies -/

/-- The fields of a form can be read off its schema. -/
theorem formFields_inj {form other : Form} (h : formFields form = formFields other) :
    form.properties = other.properties ∧ form.required = other.required := by
  have hproperties := congrArg (Fields.get? "properties") h
  have hrequired := congrArg (fun fields => Fields.get? "required" (fields.drop 2)) h
  refine ⟨Json.obj.inj (Option.some.inj hproperties), ?_⟩
  simp only [formFields, List.cons_append, List.nil_append, List.drop_succ_cons,
    List.drop_zero] at hrequired
  split_ifs at hrequired with hempty hempty' hempty'
  · rw [List.isEmpty_iff.1 hempty, List.isEmpty_iff.1 hempty']
  · cases hrequired
  · cases hrequired
  · exact Json.ofStrings_injective (Option.some.inj hrequired)

theorem ne_nil_of_body? {form : Form} (h : form.body? = some body) : form.properties ≠ [] := by
  intro hempty
  rw [Form.body?, hempty] at h
  cases h

/-- **A body is that of one form only.** -/
theorem body?_inj {form other : Form} (h : form.body? = some body) (h' : other.body? = some body) :
    form = other := by
  have hsame := h.trans h'.symm
  rw [body?_form (ne_nil_of_body? h), body?_form (ne_nil_of_body? h')] at hsame
  simp only [content, Option.some.injEq, Json.obj.injEq, List.cons.injEq, Prod.mk.injEq, true_and,
    and_true] at hsame
  obtain ⟨hmedia, hfields⟩ := hsame
  obtain ⟨hproperties, hrequired⟩ := formFields_inj hfields
  have hmultipart : form.multipart = other.multipart := by
    rw [formMedia, formMedia] at hmedia
    cases hone : form.multipart <;> cases htwo : other.multipart <;>
      simp [hone, htwo] at hmedia ⊢
  cases form
  cases other
  congr

theorem overridesByName_iff (h : (formOf entries).body? = some body) :
    OverridesByName entries body ↔ InStep entries := by
  rw [← followsLast_formOf_iff]
  constructor
  · rintro ⟨form, hform, hfollows⟩
    rwa [body?_inj h hform]
  · intro hfollows
    exact ⟨formOf entries, h, hfollows⟩

theorem exists_body?_formOf (h : entries ≠ []) : ∃ body, (formOf entries).body? = some body := by
  have hne : (formOf entries).properties ≠ [] := by
    obtain ⟨entry, rest, rfl⟩ := List.exists_cons_of_ne_nil h
    intro hempty
    have hkeys := congrArg Fields.keys hempty
    rw [formOf, Fields.keys_ofList, Fields.keys_mapValues, Fields.keys_cons, List.eraseDups_cons]
      at hkeys
    cases hkeys
  exact ⟨_, body?_form hne⟩

/-! ## The body of an operation -/

/-- The fields of the form of an operation, by the parts of bodies that its path declares
    and the parameters of its own, under their names. -/
def declaredFields (sharedBody : List Json) (table fields : List (String × Json)) :
    List (String × Json) :=
  formEntries ((sharedBody ++ inlined table fields).filter isForm)

section
variable {sharedBody : List Json} {table fields : List (String × Json)}

theorem get?_requestBody_form (produces : List String) (hkeys : (Fields.keys fields).Nodup)
    (hbody : ∀ param ∈ sharedBody ++ inlined table fields, isBody param = false) :
    Fields.get? "requestBody" (operation sharedBody table produces fields) =
      (formOf (declaredFields sharedBody table fields)).body?.or
        (Fields.get? "requestBody" fields) := by
  have hnone : (sharedBody ++ inlined table fields).filter isBody = [] :=
    List.filter_eq_nil_iff.2 fun param hparam => Bool.eq_false_iff.1 (hbody param hparam)
  rw [(get?_operation sharedBody table produces hkeys).2, operationAt, if_neg (by decide),
    if_pos rfl, inputsOf, ofList_eq, hnone, foldl_add_empty, ← declaredFields]
  rfl

/-- **The body of an operation with a form** and without a body parameter.  It is an object
    schema with one property for each name that is declared, described by the last
    declaration; but every declaration adds to its required names and may make it one in
    several parts.  So nothing but the last declarations counts exactly if the later ones take
    nothing back: no name is declared as required twice or declared so and then not so, and if
    some declaration is a file, then so is the last one of some name. -/
theorem requestBody_form_iff (produces : List String) (hkeys : (Fields.keys fields).Nodup)
    (hbody : ∀ param ∈ sharedBody ++ inlined table fields, isBody param = false)
    (hform : declaredFields sharedBody table fields ≠ []) :
    ∃ body, Fields.get? "requestBody" (operation sharedBody table produces fields) = some body ∧
      (formOf (declaredFields sharedBody table fields)).body? = some body ∧
      (OverridesByName (declaredFields sharedBody table fields) body ↔
        InStep (declaredFields sharedBody table fields)) := by
  obtain ⟨body, hvalue⟩ := exists_body?_formOf hform
  refine ⟨body, ?_, hvalue, overridesByName_iff hvalue⟩
  rw [get?_requestBody_form produces hkeys hbody, hvalue, Option.some_or]

end

/-- Fields of a form that a path declares. -/
def albumFields : List Json := [
  .obj [("name", .str "title"), ("in", .str "formData"), ("type", .str "integer")],
  .obj [("name", .str "cover"), ("in", .str "formData"), ("type", .str "file")]]

/-- An operation that declares one of them again, and requires it. -/
def albumPost : List (String × Json) := [("parameters", .arr [
  .obj [("name", .str "page"), ("in", .str "query"), ("type", .str "integer")],
  .obj [("name", .str "title"), ("in", .str "formData"), ("type", .str "string"),
    ("required", .bool true)]])]

theorem requestBody_form_iff_album :
    (Fields.keys albumPost).Nodup ∧
      (∀ param ∈ albumFields ++ inlined [] albumPost, isBody param = false) ∧
      Fields.keys (declaredFields albumFields [] albumPost) = ["title", "cover", "title"] ∧
      ∃ body, Fields.get? "requestBody" (operation albumFields [] [] albumPost) = some body ∧
        OverridesByName (declaredFields albumFields [] albumPost) body := by
  have hkeys : (Fields.keys albumPost).Nodup := by decide +kernel
  have hbody : ∀ param ∈ albumFields ++ inlined [] albumPost, isBody param = false := by
    decide +kernel
  have hnames : Fields.keys (declaredFields albumFields [] albumPost) =
      ["title", "cover", "title"] := by decide +kernel
  have hform : declaredFields albumFields [] albumPost ≠ [] := fun hempty => by
    rw [hempty] at hnames
    cases hnames
  have hstep : InStep (declaredFields albumFields [] albumPost) := by decide +kernel
  obtain ⟨body, hvalue, -, hiff⟩ := requestBody_form_iff [] hkeys hbody hform
  exact ⟨hkeys, hbody, hnames, body, hvalue, hiff.2 hstep⟩

/-! ## Declarations that are not taken back -/

/-- An operation has a form, and nothing but the last declarations counts in its body. -/
def HasOverridingForm (sharedBody : List Json) (fields : List (String × Json)) : Prop :=
  ∃ body, Fields.get? "requestBody" (operation sharedBody [] [] fields) = some body ∧
    OverridesByName (declaredFields sharedBody [] fields) body

theorem not_hasOverridingForm {sharedBody : List Json} {fields : List (String × Json)}
    (hkeys : (Fields.keys fields).Nodup)
    (hbody : ∀ param ∈ sharedBody ++ inlined [] fields, isBody param = false)
    (hform : (declaredFields sharedBody [] fields).isEmpty = false)
    (hstep : ¬ InStep (declaredFields sharedBody [] fields)) :
    ¬ HasOverridingForm sharedBody fields := by
  rintro ⟨body, hvalue, hoverrides⟩
  obtain ⟨body', hvalue'⟩ := exists_body?_formOf (List.isEmpty_eq_false_iff.1 hform)
  rw [get?_requestBody_form [] hkeys hbody, hvalue', Option.some_or] at hvalue
  obtain rfl := Option.some.inj hvalue
  exact hstep ((overridesByName_iff hvalue').1 hoverrides)

/-- A field of a form that is a text. -/
def textField (name : String) : List (String × Json) :=
  [("name", .str name), ("in", .str "formData"), ("type", .str "string")]

/-- A path requires a name, and an operation leaves it open. -/
def openName : List Json × List (String × Json) :=
  ([.obj (textField "name" ++ [("required", .bool true)])],
    [("parameters", .arr [.obj (textField "name")])])

/-- A path and an operation both require a name. -/
def requiredName : List Json × List (String × Json) :=
  ([.obj (textField "name" ++ [("required", .bool true)])],
    [("parameters", .arr [.obj (textField "name" ++ [("required", .bool true)])])])

/-- A path declares a file, and an operation a text in its place. -/
def coverAddress : List Json × List (String × Json) :=
  ([.obj [("name", .str "cover"), ("in", .str "formData"), ("type", .str "file")]],
    [("parameters", .arr [.obj (textField "cover")])])

/-- **What a later declaration takes back still counts**: a name stays required, is required
    twice, and a form without a file is one in several parts. -/
theorem stale_declarations_count :
    ¬ HasOverridingForm openName.1 openName.2 ∧
      ¬ HasOverridingForm requiredName.1 requiredName.2 ∧
      ¬ HasOverridingForm coverAddress.1 coverAddress.2 := by
  refine ⟨?_, ?_, ?_⟩ <;>
    exact not_hasOverridingForm (by decide +kernel) (by decide +kernel) (by decide +kernel)
      (by decide +kernel)

end ApiDigest.Upgrade
