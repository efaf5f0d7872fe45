/-
  The operations of a document, seen from its fields.

  A document declares an operation of a method at a path by an object at the method's key
  in an object at the path.  A digest has an operation wherever the value there has the
  shape of a record, and an array may have that shape too.

  * `Document.declaredPlaces` are the places of the declared operations, in visiting order,
    and `Document.readPlaces` those of the operations that are read;
  * `Document.places_ofFields`: the operations of the digest stand at the latter;
  * `Document.places_eq_declared_iff`: both are the same just if no array is read as a path
    item with operations, or as an operation.
-/
import ApiDigest.Proofs.Totality
import ApiDigest.Proofs.Walk

namespace ApiDigest

/-! ## Places by a test -/

section
variable {p q : Json → Method → Bool} {fields : List (String × Json)}

/-- The paths and methods that pass a test, in the order of the paths and then of the
    methods. -/
def placesWhere (p : Json → Method → Bool) (fields : List (String × Json)) :
    List (String × Method) :=
  fields.flatMap fun field => (Method.all.filter (p field.2)).map fun m => (field.1, m)

theorem Method.mem_all (m : Method) : m ∈ all := by cases m <;> decide

theorem mem_placesWhere {path : String} {m : Method} : (path, m) ∈ placesWhere p fields ↔
    ∃ item, (path, item) ∈ fields ∧ p item m = true := by
  simp only [placesWhere, List.mem_flatMap, List.mem_map, List.mem_filter, Prod.mk.injEq]
  constructor
  · rintro ⟨⟨_, item⟩, hmem, _, ⟨-, hp⟩, rfl, rfl⟩
    exact ⟨item, hmem, hp⟩
  · rintro ⟨item, hmem, hp⟩
    exact ⟨(path, item), hmem, m, ⟨m.mem_all, hp⟩, rfl, rfl⟩

/-- At different paths, tests give the same places only if they agree everywhere. -/
theorem placesWhere_eq_iff (hnd : (Fields.keys fields).Nodup) :
    placesWhere p fields = placesWhere q fields ↔ ∀ field ∈ fields, p field.2 = q field.2 := by
  constructor
  · rintro h ⟨path, item⟩ hmem
    have hsame : ∀ {r : Json → Method → Bool} {m : Method},
        (path, m) ∈ placesWhere r fields ↔ r item m = true := by
      intro r m
      rw [mem_placesWhere]
      refine ⟨fun ⟨other, hother, hr⟩ => ?_, fun hr => ⟨item, hmem, hr⟩⟩
      have hitem := (Fields.get?_of_mem hnd hother).symm.trans (Fields.get?_of_mem hnd hmem)
      rwa [← Option.some.inj hitem]
    funext m
    rw [Bool.eq_iff_iff, ← hsame, ← hsame, h]
  · intro h
    exact List.flatMap_congr fun field hfield => by rw [h field hfield]

theorem placesWhere_sublist (h : ∀ item m, q item m = true → p item m = true)
    (fields : List (String × Json)) : (placesWhere q fields).Sublist (placesWhere p fields) := by
  induction fields with
  | nil => exact List.Sublist.slnil
  | cons field rest ih =>
    exact ((List.monotone_filter_right Method.all fun m => h field.2 m).map _).append ih

end

/-! ## Places of operations -/

/-- Whether a path item has an object at the key of a method. -/
def Json.declares (item : Json) (m : Method) : Bool :=
  ((item.get? m.key).bind Json.fields?).isSome

/-- Whether an operation of a method is read from a path item. -/
def Json.readsAs (item : Json) (m : Method) : Bool :=
  (PathItem.ofJson? item).any fun item => (item.operation m).isSome

/-- An array is read as a path item with an operation, or as an operation in a path item.
    The items of an array count for the fields of a record in their order. -/
def Json.ArrayRead (item : Json) : Prop :=
  (∃ items, item = .arr items ∧ items.length ≤ 6 ∧
    ∃ value ∈ items.take 5, value.isRecord 5 = true) ∨
  ∃ m items, item.get? (Method.key m) = some (.arr items) ∧ items.length ≤ 5

theorem Method.exists_iff {P : Method → Prop} :
    (∃ m, P m) ↔ P .get ∨ P .post ∨ P .put ∨ P .delete ∨ P .patch := by
  constructor
  · rintro ⟨m, h⟩
    cases m <;> simp [h]
  · rintro (h | h | h | h | h) <;> exact ⟨_, h⟩

/-- The first five items of an array stand at the keys of the methods. -/
theorem exists_get?_zip_iff (items : List Json) (value : Json) :
    (∃ m, Fields.get? (Method.key m)
      ((Method.all.map Method.key ++ ["parameters"]).zip items) = some value) ↔
      value ∈ items.take 5 := by
  rw [Method.exists_iff]
  rcases items with _ | ⟨a, _ | ⟨b, _ | ⟨c, _ | ⟨d, _ | ⟨e, rest⟩⟩⟩⟩⟩ <;>
    simp [Method.all, Method.key, Fields.get?, eq_comm]

section
variable {fields : List (String × Json)} {items : List Json} {item : Json} {m : Method}

theorem Json.readsAs_obj : (Json.obj fields).readsAs m =
    ((Fields.get? m.key fields).any fun value => value.isRecord 5) := by
  have hread : (Json.obj fields).readsAs m =
      ((Fields.get? m.key fields).bind Operation.ofJson?).isSome := rfl
  rw [hread]
  cases Fields.get? m.key fields with
  | none => rfl
  | some value => exact (isSome_readings value).2.1

/-- An array is read like the object of its items, if it is not too long. -/
theorem PathItem.ofJson?_arr (items : List Json) : ofJson? (.arr items) =
    if items.length ≤ 6 then
      ofJson? (.obj ((Method.all.map Method.key ++ ["parameters"]).zip items))
    else none := by
  rw [ofJson?, Json.record?]
  show Option.map _ (if items.length ≤ 6 then _ else _) = _
  split_ifs <;> rfl

theorem Json.readsAs_arr : (Json.arr items).readsAs m = true ↔ items.length ≤ 6 ∧
    ∃ value, Fields.get? m.key ((Method.all.map Method.key ++ ["parameters"]).zip items) =
      some value ∧ value.isRecord 5 = true := by
  rw [readsAs, PathItem.ofJson?_arr]
  split_ifs with hlen
  · show (Json.obj _).readsAs m = true ↔ _
    rw [readsAs_obj, Option.any_eq_true]
    simp [hlen]
  · simp [hlen]

/-- Every declared operation is read. -/
theorem Json.readsAs_of_declares (h : item.declares m = true) : item.readsAs m = true := by
  cases item with
  | obj fields =>
    obtain ⟨op, hop⟩ := Option.isSome_iff_exists.1 h
    obtain ⟨value, hvalue, hfields⟩ := Option.bind_eq_some_iff.1 hop
    rw [readsAs_obj, ← get?_obj, hvalue, eq_obj_of_fields? hfields]
    rfl
  | _ => cases h

/-- **What is read is what is declared**, arrays aside. -/
theorem Json.readsAs_eq_declares_iff : item.readsAs = item.declares ↔ ¬ item.ArrayRead := by
  constructor
  · rintro h (⟨items, rfl, hlen, value, hmem, hvalue⟩ | ⟨m, items, hget, hlen⟩)
    · obtain ⟨m, hm⟩ := (exists_get?_zip_iff items value).2 hmem
      have hread : (Json.arr items).readsAs m = true := readsAs_arr.2 ⟨hlen, value, hm, hvalue⟩
      rw [h] at hread
      cases hread
    · have hdeclares : item.declares m = false := by rw [declares, hget]; rfl
      rw [← h] at hdeclares
      cases item with
      | obj fields =>
        rw [readsAs_obj, ← get?_obj, hget] at hdeclares
        simp [isRecord, hlen] at hdeclares
      | _ => cases hget
  · intro h
    funext m
    rw [Bool.eq_iff_iff]
    refine ⟨fun hread => ?_, readsAs_of_declares⟩
    cases item with
    | obj fields =>
      rw [readsAs_obj, Option.any_eq_true] at hread
      obtain ⟨value, hget, hrecord⟩ := hread
      cases value with
      | obj op => rw [declares, get?_obj, hget]; rfl
      | arr items => exact absurd (Or.inr ⟨m, items, hget, of_decide_eq_true hrecord⟩) h
      | _ => cases hrecord
    | arr items =>
      obtain ⟨hlen, value, hget, hrecord⟩ := readsAs_arr.1 hread
      have hmem := (exists_get?_zip_iff items value).1 ⟨m, hget⟩
      exact absurd (Or.inl ⟨items, rfl, hlen, value, hmem, hrecord⟩) h
    | _ => cases hread

end

namespace Document

variable {root : List (String × Json)}

/-- The places of the operations that a document declares. -/
def declaredPlaces (root : List (String × Json)) : List (String × Method) :=
  placesWhere Json.declares ((Json.obj root).fieldsAt "paths")

theorem entries_ofFields (h : (Json.obj root).DistinctKeys) : (ofFields root).paths.entries =
    Fields.filterMapValues PathItem.ofJson? ((Json.obj root).fieldsAt "paths") := by
  have hnd := (h.fieldsAt "paths").keys
  have hread : ((Fields.get? "paths" root).map (Json.readEntries PathItem.ofJson?)).getD [] =
      Fields.filterMapValues PathItem.ofJson? ((Json.obj root).fieldsAt "paths") := by
    rw [Json.fieldsAt, Json.get?_obj]
    cases Fields.get? "paths" root with
    | none => rfl
    | some value => cases value <;> rfl
  show (Table.ofList _).entries = _
  rw [hread, Table.entries_ofList (hnd.sublist (Fields.keys_filterMapValues_sublist _ _))]

/-- **The operations of a digest stand wherever one is read.** -/
theorem places_ofFields (h : (Json.obj root).DistinctKeys) :
    (ofFields root).digest.operations.map OperationRecord.place =
      placesWhere Json.readsAs ((Json.obj root).fieldsAt "paths") := by
  rw [places_operations, visits, entries_ofFields h, Fields.flatMap_filterMapValues,
    List.map_flatMap, placesWhere]
  refine List.flatMap_congr fun field _ => ?_
  cases hitem : PathItem.ofJson? field.2 with
  | none =>
    have hnone : Json.readsAs field.2 = fun _ => false :=
      funext fun m => by rw [Json.readsAs, hitem]; rfl
    rw [hnone]
    rfl
  | some item =>
    have hsome : Json.readsAs field.2 = fun m => (item.operation m).isSome :=
      funext fun m => by rw [Json.readsAs, hitem]; rfl
    rw [hsome, ← item.methods_operations, List.map_map]
    exact item.places_visits field.1

/-- **The operations of a digest are the declared ones** just if no array is read as a path
    item with an operation or as an operation; in any case the declared ones are among
    them, in their order. -/
theorem places_eq_declared_iff (h : (Json.obj root).DistinctKeys) :
    ∃ document, Document.ofJson (.obj root) = .ok document ∧
      (declaredPlaces root).Sublist (document.digest.operations.map OperationRecord.place) ∧
      (document.digest.operations.map OperationRecord.place = declaredPlaces root ↔
        ∀ field ∈ (Json.obj root).fieldsAt "paths", ¬ field.2.ArrayRead) := by
  have hnd := (h.fieldsAt "paths").keys
  refine ⟨ofFields root, ofJson_obj root, ?_, ?_⟩
  · rw [places_ofFields h]
    exact placesWhere_sublist (fun _ _ => Json.readsAs_of_declares) _
  · rw [places_ofFields h, declaredPlaces, placesWhere_eq_iff hnd]
    exact forall₂_congr fun _ _ => Json.readsAs_eq_declares_iff

/-- An array that is too long for an operation, one that is too long for a path item, and
    values that are neither objects nor arrays. -/
def cabinet : List (String × Json) := [
  ("openapi", .str "3.0.0"),
  ("paths", .obj [
    ("/cabinet", .obj [
      ("patch", .obj []), ("put", .str "no operation"), ("get", .obj [("tags", .bool true)]),
      ("delete", .arr [.null, .null, .null, .null, .null, .null])]),
    ("/key", .null),
    ("/drawers", .arr [.obj [], .null, .null, .null, .null, .null, .null])])]

theorem places_eq_declared_cabinet :
    (Json.obj cabinet).DistinctKeys ∧
      (∀ field ∈ (Json.obj cabinet).fieldsAt "paths", ¬ field.2.ArrayRead) ∧
      ∃ document, Document.ofJson (.obj cabinet) = .ok document ∧
        document.digest.operations.map OperationRecord.place =
          [("/cabinet", .get), ("/cabinet", .patch)] := by
  have hkeys : (Json.obj cabinet).DistinctKeys := by decide +kernel
  have hreads : ∀ field ∈ (Json.obj cabinet).fieldsAt "paths", ∀ m ∈ Method.all,
      field.2.readsAs m = field.2.declares m := by decide +kernel
  have harrays : ∀ field ∈ (Json.obj cabinet).fieldsAt "paths", ¬ field.2.ArrayRead :=
    fun field hfield =>
      Json.readsAs_eq_declares_iff.1 (funext fun m => hreads field hfield m m.mem_all)
  obtain ⟨document, hdocument, -, hiff⟩ := places_eq_declared_iff hkeys
  exact ⟨hkeys, harrays, document, hdocument, (hiff.2 harrays).trans (by decide +kernel)⟩

/-- An empty array in the place of an operation. -/
def drawers : List (String × Json) := [("paths", .obj [("/drawers", .obj [("get", .arr [])])])]

/-- **An array at the key of a method is an operation.** -/
theorem array_read_drawers : declaredPlaces drawers = [] ∧
    ∃ document, Document.ofJson (.obj drawers) = .ok document ∧
      document.digest.operations.map OperationRecord.place = [("/drawers", .get)] := by
  have hkeys : (Json.obj drawers).DistinctKeys := by decide +kernel
  refine ⟨by decide +kernel, ofFields drawers, ofJson_obj drawers, ?_⟩
  rw [places_ofFields hkeys]
  decide +kernel

end Document
end ApiDigest
