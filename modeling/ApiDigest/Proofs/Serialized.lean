/-
  Digests and their JSON.

  A digest is written flat: a type as its text, a shape as one record whatever its kind,
  what is absent as null.  A text may stand for several types, so two digests can be
  written alike; but every type in the digest of a document is reduced, and among reduced
  types texts are distinct.

  * `ShapeRef.Reduced`, `PropertyRecord.Reduced`, `OperationRecord.Reduced`,
    `SchemaRecord.Reduced` and `Digest.Reduced`: all types in a record are reduced;
  * `Digest.eq_of_toJson`: digests with reduced types that are written alike are equal;
  * `Document.reduced_digest`: the types in the digest of a document are reduced;
  * `Document.toJson_digest_inj` joins both.
-/
import ApiDigest.Digest.ToJson
import ApiDigest.Proofs.Origins
import ApiDigest.Proofs.ValueTypes

namespace ApiDigest

/-! ## Parts that are written alike -/

theorem eq_of_map {α β : Type} {f : α → β} : ∀ {l m : List α},
    (∀ a ∈ l, ∀ b ∈ m, f a = f b → a = b) → l.map f = m.map f → l = m
  | [], [], _, _ => rfl
  | [], b :: m, _, h => by simp at h
  | a :: l, [], _, h => by simp at h
  | a :: l, b :: m, hinj, h => by
    rw [List.map_cons, List.map_cons, List.cons.injEq] at h
    have hhead : a = b := hinj a List.mem_cons_self b List.mem_cons_self h.1
    have htail : l = m := eq_of_map
      (fun c hc d hd => hinj c (List.mem_cons_of_mem a hc) d (List.mem_cons_of_mem b hd)) h.2
    rw [hhead, htail]

/-- Optional values are told apart if no value is written as null. -/
theorem Json.eq_of_ofOption {α : Type} {f : α → Json} {a b : Option α}
    (h : Json.ofOption f a = Json.ofOption f b) (hnull : ∀ x, f x ≠ .null)
    (hinj : ∀ x ∈ a, ∀ y ∈ b, f x = f y → x = y) : a = b := by
  cases a with
  | none =>
    cases b with
    | none => rfl
    | some y => exact absurd h.symm (hnull y)
  | some x =>
    cases b with
    | none => exact absurd h (hnull x)
    | some y => exact congrArg some (hinj x rfl y rfl h)

theorem Json.str_injective : Function.Injective Json.str := fun _ _ h => Json.str.inj h

theorem Json.eq_of_ofOption_str {a b : Option String}
    (h : Json.ofOption .str a = Json.ofOption .str b) : a = b :=
  Json.eq_of_ofOption h nofun fun _ _ _ _ h => Json.str_injective h

theorem Json.ofStrings_injective : Function.Injective Json.ofStrings :=
  fun _ _ h => Json.str_injective.list_map (Json.arr.inj h)

theorem Literal.toJson_injective : Function.Injective Literal.toJson := by
  intro a b h
  cases a <;> cases b <;> simp_all [Literal.toJson]

theorem ParamPlace.name_injective : Function.Injective ParamPlace.name := by
  intro a b h
  revert h
  cases a <;> cases b <;> decide

theorem Method.key_injective : Function.Injective Method.key := by
  intro a b h
  revert h
  cases a <;> cases b <;> decide

theorem ValueType.eq_of_toJson {t u : ValueType} (ht : t.Reduced) (hu : u.Reduced)
    (h : t.toJson = u.toJson) : t = u :=
  ValueType.eq_of_render ht hu (Json.str.inj h)

theorem ValueType.eq_of_ofOption_toJson {a b : Option ValueType} (ha : ∀ t ∈ a, t.Reduced)
    (hb : ∀ t ∈ b, t.Reduced) (h : Json.ofOption toJson a = Json.ofOption toJson b) : a = b :=
  Json.eq_of_ofOption h nofun fun t ht u hu => ValueType.eq_of_toJson (ha t ht) (hb u hu)

/-! ## Records whose types are reduced -/

/-- The types of a shape are reduced. -/
structure ShapeRef.Reduced (shape : ShapeRef) : Prop where
  type : shape.type.Reduced
  itemType : ∀ t ∈ shape.itemType, t.Reduced

/-- The types of a property are reduced. -/
structure PropertyRecord.Reduced (record : PropertyRecord) : Prop where
  type : record.type.Reduced
  itemType : ∀ t ∈ record.itemType, t.Reduced

/-- The types of an operation's parameters and shapes are reduced. -/
structure OperationRecord.Reduced (record : OperationRecord) : Prop where
  parameters : ∀ parameter ∈ record.pathParams ++ record.queryParams, parameter.type.Reduced
  shapes : ∀ shape ∈ record.body.toList ++ record.response.toList, shape.Reduced

/-- The types of all properties are reduced. -/
def SchemaRecord.Reduced (record : SchemaRecord) : Prop :=
  ∀ property ∈ record.properties, property.Reduced

/-- The types of all records are reduced. -/
structure Digest.Reduced (digest : Digest) : Prop where
  operations : ∀ op ∈ digest.operations, op.Reduced
  schemas : ∀ schema ∈ digest.schemas, schema.Reduced

/-! ## Records that are written alike -/

theorem ParamRecord.eq_of_toJson {a b : ParamRecord} (ha : a.type.Reduced) (hb : b.type.Reduced)
    (h : a.toJson = b.toJson) : a = b := by
  simp only [toJson, Json.obj.injEq, List.cons.injEq, Prod.mk.injEq, Json.str.injEq,
    Json.bool.injEq, true_and, and_true] at h
  obtain ⟨hname, htype, hrequired, hplace⟩ := h
  have htype := ValueType.eq_of_toJson ha hb htype
  have hplace := ParamPlace.name_injective hplace
  cases a
  cases b
  simp_all

/-- The flat record of a shape says which kind it is, and has all its fields. -/
theorem ShapeRef.eq_of_toJson {a b : ShapeRef} (ha : a.Reduced) (hb : b.Reduced)
    (h : a.toJson = b.toJson) : a = b := by
  simp only [toJson, Json.obj.injEq, List.cons.injEq, Prod.mk.injEq, Json.str.injEq,
    Json.bool.injEq, true_and, and_true] at h
  obtain ⟨hkind, htype, hname, -, hitemRef, hitemType⟩ := h
  have htype := ValueType.eq_of_toJson ha.type hb.type htype
  have hname := Json.eq_of_ofOption_str hname
  have hitemRef := Json.eq_of_ofOption_str hitemRef
  have hitemType := ValueType.eq_of_ofOption_toJson ha.itemType hb.itemType hitemType
  cases a <;> cases b <;> simp_all [kind, type, name?, itemRef, itemType]

theorem OperationRecord.eq_of_toJson {a b : OperationRecord} (ha : a.Reduced) (hb : b.Reduced)
    (h : a.toJson = b.toJson) : a = b := by
  simp only [toJson, Json.obj.injEq, List.cons.injEq, Prod.mk.injEq, Json.str.injEq,
    Json.arr.injEq, true_and, and_true] at h
  obtain ⟨hid, hmethod, hpath, hpathParams, hqueryParams, hbody, hresponse, htags⟩ := h
  have hmethod := Method.key_injective hmethod
  have hpathParams := eq_of_map (fun p hp q hq => ParamRecord.eq_of_toJson
    (ha.parameters p (List.mem_append_left _ hp))
    (hb.parameters q (List.mem_append_left _ hq))) hpathParams
  have hqueryParams := eq_of_map (fun p hp q hq => ParamRecord.eq_of_toJson
    (ha.parameters p (List.mem_append_right _ hp))
    (hb.parameters q (List.mem_append_right _ hq))) hqueryParams
  have hbody := Json.eq_of_ofOption hbody nofun fun s hs t ht => ShapeRef.eq_of_toJson
    (ha.shapes s (List.mem_append_left _ (Option.mem_toList.2 hs)))
    (hb.shapes t (List.mem_append_left _ (Option.mem_toList.2 ht)))
  have hresponse := Json.eq_of_ofOption hresponse nofun fun s hs t ht => ShapeRef.eq_of_toJson
    (ha.shapes s (List.mem_append_right _ (Option.mem_toList.2 hs)))
    (hb.shapes t (List.mem_append_right _ (Option.mem_toList.2 ht)))
  have htags := Json.ofStrings_injective htags
  cases a
  cases b
  simp_all

theorem PropertyRecord.eq_of_toJson {a b : PropertyRecord} (ha : a.Reduced) (hb : b.Reduced)
    (h : a.toJson = b.toJson) : a = b := by
  simp only [toJson, Json.obj.injEq, List.cons.injEq, Prod.mk.injEq, Json.str.injEq,
    Json.bool.injEq, true_and, and_true] at h
  obtain ⟨hname, htype, hrequired, hisArray, hitemType, hitemRef, href, hliterals⟩ := h
  have htype := ValueType.eq_of_toJson ha.type hb.type htype
  have hitemType := ValueType.eq_of_ofOption_toJson ha.itemType hb.itemType hitemType
  have hitemRef := Json.eq_of_ofOption_str hitemRef
  have href := Json.eq_of_ofOption_str href
  have hliterals := Json.eq_of_ofOption hliterals nofun
    fun _ _ _ _ h => Literal.toJson_injective.list_map (Json.arr.inj h)
  cases a
  cases b
  simp_all

theorem SchemaRecord.eq_of_toJson {a b : SchemaRecord} (ha : a.Reduced) (hb : b.Reduced)
    (h : a.toJson = b.toJson) : a = b := by
  simp only [toJson, Json.obj.injEq, List.cons.injEq, Prod.mk.injEq, Json.str.injEq,
    Json.arr.injEq, true_and, and_true] at h
  obtain ⟨hname, hproperties, hrequired⟩ := h
  have hproperties := eq_of_map
    (fun p hp q hq => PropertyRecord.eq_of_toJson (ha p hp) (hb q hq)) hproperties
  have hrequired := Json.ofStrings_injective hrequired
  cases a
  cases b
  simp_all

/-- **Digests with reduced types that are written alike are equal.** -/
theorem Digest.eq_of_toJson {a b : Digest} (ha : a.Reduced) (hb : b.Reduced)
    (h : a.toJson = b.toJson) : a = b := by
  simp only [toJson, Json.obj.injEq, List.cons.injEq, Prod.mk.injEq, Json.arr.injEq, true_and,
    and_true] at h
  obtain ⟨hoperations, hschemas⟩ := h
  have hoperations := eq_of_map (fun p hp q hq =>
    OperationRecord.eq_of_toJson (ha.operations p hp) (hb.operations q hq)) hoperations
  have hschemas := eq_of_map (fun p hp q hq =>
    SchemaRecord.eq_of_toJson (ha.schemas p hp) (hb.schemas q hq)) hschemas
  cases a
  cases b
  simp_all

/-! ## Records of nodes -/

theorem Schema.reduced_elementType {items : Option Schema} {t : ValueType}
    (h : t ∈ elementType items) : t.Reduced := by
  obtain ⟨node, -, hnode⟩ := Option.bind_eq_some_iff.1 h
  split_ifs at hnode
  exact Option.some.inj hnode ▸ node.reduced_valueType

theorem Schema.reduced_shapeRef (node : Schema) : node.shapeRef.Reduced := by
  rw [shapeRef]
  split
  · exact ⟨trivial, nofun⟩
  · split_ifs
    · exact ⟨trivial, fun _ ht => reduced_elementType ht⟩
    · exact ⟨reduced_valueType _, nofun⟩

theorem Schema.reduced_record (name : String) (node : Schema) : (node.record name).Reduced := by
  intro property hproperty
  obtain ⟨entry, -, rfl⟩ := List.mem_map.1 hproperty
  exact ⟨reduced_valueType _, fun _ ht => reduced_elementType ht⟩

theorem Parameter.reduced_record? {parameter : Parameter} {record : ParamRecord}
    (h : parameter.record? = some record) : record.type.Reduced := by
  unfold record? at h
  split at h
  · cases h
  · split_ifs at h
    obtain rfl := Option.some.inj h
    cases parameter.schema with
    | none => trivial
    | some node => exact node.reduced_valueType

namespace Document

/-- **All types in the digest of a document are reduced.** -/
theorem reduced_digest (document : Document) : document.digest.Reduced where
  operations op hop := {
    parameters := fun record hrecord => by
      obtain ⟨parameter, hparameter⟩ := exists_parameter hop hrecord
      exact parameter.reduced_record? hparameter
    shapes := fun shape hshape => by
      obtain ⟨name, rfl⟩ | ⟨node, rfl⟩ := shape_cases hop hshape
      · exact ⟨trivial, nofun⟩
      · exact node.reduced_shapeRef }
  schemas record hrecord := by
    obtain ⟨node, hnode⟩ := exists_node hrecord
    rw [hnode]
    exact node.reduced_record record.name

/-- **The JSON of a digest determines it**, whatever documents it is the digest of. -/
theorem toJson_digest_inj (d e : Document) :
    d.digest.toJson = e.digest.toJson ↔ d.digest = e.digest := by
  constructor
  · exact Digest.eq_of_toJson d.reduced_digest e.reduced_digest
  · exact congrArg Digest.toJson

end Document
end ApiDigest
