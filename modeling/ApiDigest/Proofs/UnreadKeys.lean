/-
  Keys that are not read.

  A record is read key by key, so nothing depends on the order of its keys, nor on keys
  that are not among its own.  This holds at any depth, wherever a record is expected; in
  tables and lists, where every entry is read, order and keys stay.

  * `RecordKind.fields` are the keys that are read of a record, with what is expected there;
  * `Role.Alike` relates values that differ in the order of keys and in keys that are not
    read: `Role.alike_of_perm` and `Role.alike_insert` are the two cases;
  * `RecordKind.read_congr`: a record is read from the values of its keys;
  * `Role.Alike.agree`: values that are alike are read as the same.
-/
import ApiDigest.Proofs.NullWrappers
import ApiDigest.Proofs.ViewedNodes

attribute [ext] ApiDigest.Document ApiDigest.PathItem ApiDigest.Operation ApiDigest.Parameter
  ApiDigest.Body ApiDigest.Response ApiDigest.MediaType

namespace ApiDigest

/-! ## Records -/

/-- The kinds of records in a document. -/
inductive RecordKind where
  | document
  | components
  | pathItem
  | operation
  | parameter
  | body
  | response
  | mediaType
  | schema

/-- What is expected at a key. -/
inductive Role where
  /-- A value that is read as a whole. -/
  | value
  | record (kind : RecordKind)
  | table (kind : RecordKind)
  | list (kind : RecordKind)

namespace RecordKind

/-- The keys of a record in order of declaration, with what is expected there. -/
def fields : RecordKind → List (String × Role)
  | document => [("paths", .table pathItem), ("components", .record components)]
  | components => [("schemas", .table schema)]
  | pathItem =>
    Method.all.map (fun m => (m.key, .record operation)) ++ [("parameters", .list parameter)]
  | operation => [
    ("operationId", .value), ("tags", .value), ("parameters", .list parameter),
    ("requestBody", .record body), ("responses", .table response)]
  | parameter => [
    ("name", .value), ("in", .value), ("required", .value), ("schema", .record schema)]
  | body => [("required", .value), ("content", .table mediaType)]
  | response => [("content", .table mediaType)]
  | mediaType => [("schema", .record schema)]
  | schema => [
    ("type", .value), ("format", .value), ("$ref", .value), ("properties", .table schema),
    ("required", .value), ("items", .record schema), ("enum", .value), ("anyOf", .list schema),
    ("not", .value), ("nullable", .value)]

/-- The keys of a record in order of declaration. -/
def keys (kind : RecordKind) : List String := Fields.keys kind.fields

/-- What is read of a record. -/
def View : RecordKind → Type
  | document => Document
  | components => Table Schema
  | pathItem => PathItem
  | operation => Operation
  | parameter => Parameter
  | body => Body
  | response => Response
  | mediaType => MediaType
  | schema => Schema

/-- Reads a record. -/
def read : (kind : RecordKind) → Json → Option kind.View
  | document, value => (value.record? document.keys).map Document.ofFields
  | components, value =>
    (value.record? components.keys).map (Fields.readTable "schemas" Schema.ofJson?)
  | pathItem, value => PathItem.ofJson? value
  | operation, value => Operation.ofJson? value
  | parameter, value => Parameter.ofJson? value
  | body, value => Body.ofJson? value
  | response, value => Response.ofJson? value
  | mediaType, value => MediaType.ofJson? value
  | schema, value => Schema.ofJson? value

end RecordKind

/-! ## Values that are alike -/

/-- The second value is the first one up to the order of keys, and up to keys that are not
    read, in the records inside.  Arrays that are read as records count as such. -/
inductive Role.Alike : Role → Json → Json → Prop
  | refl (role : Role) (v : Json) : Alike role v v
  | record {kind : RecordKind} {v w : Json} {fields others : List (String × Json)} :
      v.record? kind.keys = some fields → w.record? kind.keys = some others →
      (∀ key role, Fields.get? key kind.fields = some role →
        (Fields.get? key fields).isSome = (Fields.get? key others).isSome) →
      (∀ key role x y, Fields.get? key kind.fields = some role →
        Fields.get? key fields = some x → Fields.get? key others = some y → Alike role x y) →
      Alike (.record kind) v w
  | table {kind : RecordKind} {entries others : List (String × Json)} :
      Fields.keys entries = Fields.keys others →
      (∀ pair ∈ entries.zip others, Alike (.record kind) pair.1.2 pair.2.2) →
      Alike (.table kind) (.obj entries) (.obj others)
  | list {kind : RecordKind} {items others : List Json} :
      items.length = others.length →
      (∀ pair ∈ items.zip others, Alike (.record kind) pair.1 pair.2) →
      Alike (.list kind) (.arr items) (.arr others)

namespace Role

variable {kind : RecordKind} {role : Role} {x y : Json} {key : String}
  {fields others : List (String × Json)}

/-- Records are alike if at every key they hold the same, or what is alike. -/
theorem alike_of_keys (h : ∀ k role, Fields.get? k kind.fields = some role →
      Fields.get? k fields = Fields.get? k others ∨
        ∃ x y, Fields.get? k fields = some x ∧ Fields.get? k others = some y ∧ role.Alike x y) :
    Alike (.record kind) (.obj fields) (.obj others) := by
  refine .record rfl rfl (fun k role hrole => ?_) fun k role x y hrole hx hy => ?_
  · rcases h k role hrole with hsame | ⟨x, y, hx, hy, -⟩
    · rw [hsame]
    · rw [hx, hy]
      rfl
  · rcases h k role hrole with hsame | ⟨x', y', hx', hy', halike⟩
    · obtain rfl := Option.some.inj (hx.symm.trans (hsame.trans hy))
      exact .refl role x
    · obtain rfl := Option.some.inj (hx.symm.trans hx')
      obtain rfl := Option.some.inj (hy.symm.trans hy')
      exact halike

theorem mem_keys (h : Fields.get? key kind.fields = some role) : key ∈ kind.keys :=
  Fields.mem_keys_of_mem (Fields.mem_of_get? h)

theorem alike_of_get? (h : ∀ k ∈ kind.keys, Fields.get? k fields = Fields.get? k others) :
    Alike (.record kind) (.obj fields) (.obj others) :=
  alike_of_keys fun k _ hrole => .inl (h k (mem_keys hrole))

/-- **The order of keys** may differ. -/
theorem alike_of_perm (h : fields.Perm others) (hnd : (Fields.keys fields).Nodup) :
    Alike (.record kind) (.obj fields) (.obj others) :=
  alike_of_get? fun k _ => Fields.get?_perm h hnd k

/-- **A key that is not read** may be there, with any value. -/
theorem alike_insert (h : key ∉ kind.keys) (value : Json) :
    Alike (.record kind) (.obj fields) (.obj (Fields.insert key value fields)) := by
  refine alike_of_get? fun k hk => ?_
  rw [Fields.get?_insert, if_neg]
  rintro rfl
  exact h hk

/-- **A value inside** may differ in the same way. -/
theorem alike_at (key : String) (hrole : Fields.get? key kind.fields = some role)
    (hx : Fields.get? key fields = some x) (hy : Fields.get? key others = some y)
    (h : role.Alike x y)
    (hrest : ∀ k ∈ kind.keys, k ≠ key → Fields.get? k fields = Fields.get? k others) :
    Alike (.record kind) (.obj fields) (.obj others) := by
  refine alike_of_keys fun k role' hrole' => ?_
  by_cases hkey : k = key
  · subst hkey
    obtain rfl := Option.some.inj (hrole.symm.trans hrole')
    exact .inr ⟨x, y, hx, hy, h⟩
  · exact .inl (hrest k (mem_keys hrole') hkey)

end Role

/-! ## Reading records -/

/-- Two values are read as the same. -/
def Role.Agree : Role → Json → Json → Prop
  | value, v, w => v = w
  | record kind, v, w => kind.read v = kind.read w
  | table kind, v, w => v.readEntries kind.read = w.readEntries kind.read
  | list kind, v, w => v.readItems kind.read = w.readItems kind.read

/-- What stands at the keys of a record is read as the same. -/
def RecordKind.Agree (kind : RecordKind) (fields others : List (String × Json)) : Prop :=
  ∀ key role, Fields.get? key kind.fields = some role →
    Option.Rel role.Agree (Fields.get? key fields) (Fields.get? key others)

section
variable {α : Type} {kind : RecordKind} {v : Json} {fields others : List (String × Json)}
  (key : String) (part : RecordKind)

namespace RecordKind.Agree

theorem get? (h : kind.Agree fields others) (hkey : Fields.get? key kind.fields = some .value) :
    Fields.get? key fields = Fields.get? key others := by
  have hvalue := map_eq_of_rel (fun v w (hvw : v = w) => hvw) (h key _ hkey)
  rwa [Option.map_id', Option.map_id'] at hvalue

theorem value (h : kind.Agree fields others) {f : Json → Option α}
    (hkey : Fields.get? key kind.fields = some .value) :
    Fields.read key f fields = Fields.read key f others :=
  congrArg (fun value => Option.bind value f) (h.get? key hkey)

theorem values (h : kind.Agree fields others) {f : Json → Option α}
    (hkey : Fields.get? key kind.fields = some .value) :
    Fields.readList key f fields = Fields.readList key f others :=
  congrArg (fun value => (Option.map (Json.readItems f) value).getD []) (h.get? key hkey)

theorem record (h : kind.Agree fields others)
    (hkey : Fields.get? key kind.fields = some (.record part)) :
    Fields.read key part.read fields = Fields.read key part.read others := by
  have hread := h key _ hkey
  rw [Fields.read, Fields.read]
  generalize Fields.get? key fields = a, Fields.get? key others = b at hread ⊢
  cases hread with
  | none => rfl
  | some hvw => exact hvw

theorem entries (h : kind.Agree fields others)
    (hkey : Fields.get? key kind.fields = some (.table part)) :
    (Fields.get? key fields).map (Json.readEntries part.read) =
      (Fields.get? key others).map (Json.readEntries part.read) :=
  map_eq_of_rel (fun _ _ hvw => hvw) (h key _ hkey)

theorem table (h : kind.Agree fields others)
    (hkey : Fields.get? key kind.fields = some (.table part)) :
    Fields.readTable key part.read fields = Fields.readTable key part.read others :=
  congrArg (fun entries => Table.ofList (Option.getD entries [])) (h.entries key part hkey)

theorem list (h : kind.Agree fields others)
    (hkey : Fields.get? key kind.fields = some (.list part)) :
    Fields.readList key part.read fields = Fields.readList key part.read others :=
  congrArg (fun items => Option.getD items [])
    (map_eq_of_rel (fun _ _ hvw => hvw) (h key _ hkey))

end RecordKind.Agree

namespace RecordKind

/-- A record is read from its fields. -/
theorem read_of_record? (h : v.record? kind.keys = some fields) :
    kind.read v = kind.read (.obj fields) := by
  cases kind with
  | schema =>
    show Schema.ofJson? v = Schema.ofJson? (.obj fields)
    rw [Schema.ofJson?_eq, Schema.ofJson?_eq]
    exact congrArg (Option.map Schema.ofFields) h
  | _ => exact congrArg (Option.map _) h

/-- A document without readable components has no schemas. -/
theorem schemas_ofFields (fields : List (String × Json)) :
    (Document.ofFields fields).schemas =
      (Fields.read "components" components.read fields).getD .empty := by
  show Fields.readTable _ _ (((Fields.get? "components" fields).bind _).getD []) =
    ((Fields.get? "components" fields).bind _).getD Table.empty
  cases Fields.get? "components" fields with
  | none => rfl
  | some value =>
    show Fields.readTable _ _ ((value.record? ["schemas"]).getD []) =
      (Option.map _ (value.record? ["schemas"])).getD Table.empty
    cases value.record? ["schemas"] <;> rfl

/-- **A record is read from what stands at its keys.** -/
theorem read_congr (h : kind.Agree fields others) :
    kind.read (.obj fields) = kind.read (.obj others) := by
  cases kind with
  | document =>
    refine congrArg some (Document.ext (h.table "paths" .pathItem rfl) ?_)
    rw [schemas_ofFields, schemas_ofFields, h.record "components" .components rfl]
  | components => exact congrArg some (h.table "schemas" .schema rfl)
  | pathItem =>
    refine congrArg some (PathItem.ext (funext fun m => ?_) (h.list "parameters" .parameter rfl))
    exact h.record m.key .operation (by cases m <;> rfl)
  | operation =>
    exact congrArg some (Operation.ext (h.value "operationId" rfl) (h.values "tags" rfl)
      (h.list "parameters" .parameter rfl) (h.record "requestBody" .body rfl)
      (h.table "responses" .response rfl))
  | parameter =>
    exact congrArg some (Parameter.ext (congrArg (Option.getD · "") (h.value "name" rfl))
      (congrArg (Option.getD · "") (h.value "in" rfl))
      (congrArg (Option.getD · false) (h.value "required" rfl)) (h.record "schema" .schema rfl))
  | body =>
    exact congrArg some (Body.ext (congrArg (Option.getD · false) (h.value "required" rfl))
      (h.table "content" .mediaType rfl))
  | response => exact congrArg some (Response.ext (h.table "content" .mediaType rfl))
  | mediaType => exact congrArg some (MediaType.ext (h.record "schema" .schema rfl))
  | schema =>
    show Schema.ofJson? (.obj fields) = Schema.ofJson? (.obj others)
    rw [Schema.ofJson?_obj, Schema.ofJson?_obj]
    refine congrArg some (Schema.ext (h.value "type" rfl) (h.value "format" rfl)
      (h.value "$ref" rfl) ?_ (h.values "required" rfl) ?_ (h.value "enum" rfl) ?_
      (h.value "not" rfl) (h.value "nullable" rfl))
    · rw [Schema.properties_ofFields, Schema.properties_ofFields]
      exact congrArg (Option.getD · []) (h.entries "properties" .schema rfl)
    · rw [Schema.items_ofFields, Schema.items_ofFields]
      exact h.record "items" .schema rfl
    · rw [Schema.variants_ofFields_eq, Schema.variants_ofFields_eq]
      exact h.list "anyOf" .schema rfl

end RecordKind
end

/-! ## Alike and read as the same -/

theorem rel_of_isSome {α : Type} {R : α → α → Prop} {a b : Option α}
    (hsome : a.isSome = b.isSome) (h : ∀ x y, a = some x → b = some y → R x y) : Option.Rel R a b := by
  cases a with
  | none =>
    cases b with
    | none => exact .none
    | some y => cases hsome
  | some x =>
    cases b with
    | none => cases hsome
    | some y => exact .some (h x y rfl rfl)

theorem filterMap_eq_of_forall₂ {α β γ : Type} {f : α → Option γ} {g : β → Option γ}
    {l : List α} {m : List β} (h : List.Forall₂ (fun a b => f a = g b) l m) :
    l.filterMap f = m.filterMap g := by
  induction h with
  | nil => rfl
  | cons hhead _ ih => rw [List.filterMap_cons, List.filterMap_cons, hhead, ih]

namespace Json

variable {α : Type} {read : Json → Option α}

theorem readEntries_congr {entries others : List (String × Json)}
    (hkeys : Fields.keys entries = Fields.keys others)
    (h : ∀ pair ∈ entries.zip others, read pair.1.2 = read pair.2.2) :
    readEntries read (.obj entries) = readEntries read (.obj others) := by
  have hsame : List.Forall₂ (fun entry other => entry.1 = other.1) entries others := by
    rwa [Fields.keys, Fields.keys, ← List.forall₂_eq_eq_eq, List.forall₂_map_left_iff,
      List.forall₂_map_right_iff] at hkeys
  refine filterMap_eq_of_forall₂ (List.forall₂_iff_zip.2 ⟨hsame.length_eq, ?_⟩)
  rintro ⟨key, value⟩ ⟨key', value'⟩ hmem
  obtain rfl : key = key' := List.forall₂_zip hsame hmem
  exact congrArg (Option.map fun w => (key, w)) (h _ hmem)

theorem readItems_congr {items others : List Json} (hlength : items.length = others.length)
    (h : ∀ pair ∈ items.zip others, read pair.1 = read pair.2) :
    readItems read (.arr items) = readItems read (.arr others) :=
  filterMap_eq_of_forall₂ (List.forall₂_iff_zip.2 ⟨hlength, fun hmem => h _ hmem⟩)

end Json

namespace Role

variable {role : Role} {v w : Json}

/-- **Values that are alike are read as the same.** -/
theorem Alike.agree (h : role.Alike v w) : role.Agree v w := by
  induction h with
  | refl role v => cases role <;> rfl
  | @record kind v w fields others hv hw hpresent _ ih =>
    show kind.read v = kind.read w
    rw [RecordKind.read_of_record? hv, RecordKind.read_of_record? hw]
    refine RecordKind.read_congr fun key role hrole => ?_
    exact rel_of_isSome (hpresent key role hrole) fun x y hx hy => ih key role x y hrole hx hy
  | table hkeys _ ih => exact Json.readEntries_congr hkeys ih
  | list hlength _ ih => exact Json.readItems_congr hlength ih

end Role

namespace Document

variable {root other : List (String × Json)}

/-- **Documents that are alike have the same digest.** -/
theorem ofFields_of_alike (h : (Role.record .document).Alike (.obj root) (.obj other)) :
    ofFields root = ofFields other :=
  Option.some.inj h.agree

end Document
end ApiDigest
