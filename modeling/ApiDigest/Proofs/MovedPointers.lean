/-
  Values whose pointers are moved.

  Moving goes through a whole value and brings every pointer and every null flag into
  the newer dialect.  A value with none of the older ones is left as it is, and a moved
  value has none, so moving twice is moving once.

  * `Upgrade.Moved` holds of the values that have no pointer and no null flag of the
    older dialect;
  * `Upgrade.moved_move` and `Upgrade.move_of_moved`: moving ends there, and nowhere else;
  * `Upgrade.moved_upgrade`: an upgraded document has no pointer of the older dialect.
-/
import ApiDigest.Proofs.Parts
import ApiDigest.Proofs.UpgradedKeys

namespace ApiDigest.Upgrade

variable {fields : List (String × Json)} {items : List Json} {value : Json} {pointer : String}

/-! ## Pointers -/

/-- A pointer into one of the tables of the older dialect. -/
def IsOld (pointer : String) : Prop :=
  ∃ table ∈ ["#/definitions/", "#/parameters/", "#/responses/"], Text.startsWith table pointer

instance (pointer : String) : Decidable (IsOld pointer) :=
  inferInstanceAs (Decidable (∃ table ∈ _, Text.startsWith table pointer = true))

theorem startsWith_eq (start text : String) :
    Text.startsWith start text = (Text.afterStart? start text).isSome := by
  rw [Text.startsWith, Text.afterStart?, Option.isSome_map]

theorem isOld_iff : IsOld pointer ↔
    ∃ table ∈ movedTables, (Text.afterStart? table.1 pointer).isSome := by
  simp [IsOld, movedTables, startsWith_eq]

/-- What a pointer is moved to: itself, or the new place of the table that it points into. -/
theorem movePointer_cases (pointer : String) :
    (¬ IsOld pointer ∧ movePointer pointer = pointer) ∨
    IsOld pointer ∧ ∃ table ∈ movedTables, ∃ name, movePointer pointer = table.2 ++ name := by
  have hmove : movePointer pointer = (movedTables.findSome? fun table =>
      (Text.afterStart? table.1 pointer).map fun name => table.2 ++ name).getD pointer := rfl
  rw [hmove, isOld_iff]
  cases hfind : movedTables.findSome? fun table =>
      (Text.afterStart? table.1 pointer).map fun name => table.2 ++ name with
  | none =>
    refine Or.inl ⟨?_, rfl⟩
    rintro ⟨table, htable, hstart⟩
    have hnone := Option.map_eq_none_iff.1 (List.findSome?_eq_none_iff.1 hfind table htable)
    rw [hnone] at hstart
    cases hstart
  | some moved =>
    obtain ⟨table, htable, hname⟩ := List.exists_of_findSome?_eq_some hfind
    obtain ⟨name, hstart, rfl⟩ := Option.map_eq_some_iff.1 hname
    exact Or.inr ⟨⟨table, htable, by rw [hstart]; rfl⟩, table, htable, name, rfl⟩

theorem movePointer_of_not_isOld (h : ¬ IsOld pointer) : movePointer pointer = pointer :=
  (movePointer_cases pointer).elim And.right fun hold => absurd hold.1 h

/-- **A moved pointer is none of the older dialect.** -/
theorem not_isOld_movePointer (pointer : String) : ¬ IsOld (movePointer pointer) := by
  rcases movePointer_cases pointer with ⟨hold, hmove⟩ | ⟨-, table, htable, name, hmove⟩
  · rwa [hmove]
  · rw [hmove]
    simp only [movedTables, List.mem_cons, List.not_mem_nil, or_false] at htable
    rcases htable with rfl | rfl | rfl <;> simp [IsOld, Text.startsWith, Text.stripStart?]

/-! ## Moved values -/

/-- No object in the value, at any depth, has a pointer or a null flag of the older
    dialect. -/
def Moved (value : Json) : Prop :=
  ∀ fields ∈ value.objects, "x-nullable" ∉ Fields.keys fields ∧
    ∀ pointer, ("$ref", Json.str pointer) ∈ fields → ¬ IsOld pointer

theorem moved_obj_iff : Moved (.obj fields) ↔
    ("x-nullable" ∉ Fields.keys fields ∧
      ∀ pointer, ("$ref", Json.str pointer) ∈ fields → ¬ IsOld pointer) ∧
    ∀ field ∈ fields, Moved field.2 :=
  Json.forall_objects_obj

theorem moved_arr_iff : Moved (.arr items) ↔ ∀ item ∈ items, Moved item :=
  Json.forall_objects_arr

theorem moved_of_objects (h : value.objects = []) : Moved value := by
  simp [Moved, h]

/-! ## Moving -/

/-- Whatever a moved object holds was a value of a field, moved. -/
theorem exists_source (hnd : (Fields.keys fields).Nodup) {field : String × Json}
    (h : field ∈ moveObject (moveFields fields)) :
    ∃ source ∈ fields, field.2 = moveAt source.1 source.2 := by
  have hget := Fields.get?_of_mem (nodup_keys_moveObject hnd) h
  rw [get?_moveObject_eq hnd, movedAt] at hget
  split_ifs at hget
  · obtain ⟨source, hsource, hvalue⟩ := Option.map_eq_some_iff.1 hget
    rcases Option.or_eq_some_iff.1 hsource with hsource | ⟨-, hsource⟩
    · exact ⟨("nullable", source), Fields.mem_of_get? hsource,
        hvalue.symm.trans (moveAt_of_ne (by decide : "nullable" ≠ "$ref") source).symm⟩
    · exact ⟨("x-nullable", source), Fields.mem_of_get? hsource,
        hvalue.symm.trans (moveAt_of_ne (by decide : "x-nullable" ≠ "$ref") source).symm⟩
  · obtain ⟨source, hsource, hvalue⟩ := Option.map_eq_some_iff.1 hget
    exact ⟨_, Fields.mem_of_get? hsource, hvalue.symm⟩

/-- A moved pointer is a text, and all else is moved as a value. -/
theorem moveAt_cases (key : String) (value : Json) :
    (moveAt key value).objects = [] ∨ moveAt key value = move value := by
  unfold moveAt
  split_ifs
  · cases value with
    | str pointer => exact Or.inl rfl
    | _ => exact Or.inr rfl
  · exact Or.inr rfl

theorem objects_eq_nil (hfields : value.fields? = none) (hitems : value.items? = none) :
    value.objects = [] := by
  cases value with
  | obj => cases hfields
  | arr => cases hitems
  | _ => rfl

theorem move_eq_self (hfields : value.fields? = none) (hitems : value.items? = none) :
    move value = value := by
  cases value with
  | obj => cases hfields
  | arr => cases hitems
  | _ => rfl

/-- **A moved value has distinct keys** if the value has. -/
theorem distinctKeys_move (h : value.DistinctKeys) : (move value).DistinctKeys := by
  induction value using Json.induct with
  | leaf value hfields hitems => rwa [move_eq_self hfields hitems]
  | arr items ih =>
    rw [move_arr, Json.distinctKeys_arr_iff]
    intro part hpart
    obtain ⟨item, hitem, rfl⟩ := List.mem_map.1 hpart
    exact ih item hitem (h.item hitem)
  | obj fields ih =>
    rw [move_obj]
    refine Json.distinctKeys_obj_iff.2 ⟨nodup_keys_moveObject h.keys, fun field hfield => ?_⟩
    obtain ⟨source, hsource, hvalue⟩ := exists_source h.keys hfield
    rw [hvalue]
    rcases moveAt_cases source.1 source.2 with hflat | hmove
    · exact Json.distinctKeys_of_objects hflat
    · rw [hmove]; exact ih source hsource (h.field hsource)

/-- **So has an upgraded document**, and what is said of documents with distinct
    keys may be said of it too. -/
theorem distinctKeys_upgrade {root : List (String × Json)} (h : (Json.obj root).DistinctKeys) :
    (Json.obj root).upgrade.DistinctKeys :=
  distinctKeys_move (distinctKeys_document h)

/-- **A moved value has nothing of the older dialect.** -/
theorem moved_move (h : value.DistinctKeys) : Moved (move value) := by
  induction value using Json.induct with
  | leaf value hfields hitems =>
    rw [move_eq_self hfields hitems]
    exact moved_of_objects (objects_eq_nil hfields hitems)
  | arr items ih =>
    rw [move_arr, moved_arr_iff]
    intro part hpart
    obtain ⟨item, hitem, rfl⟩ := List.mem_map.1 hpart
    exact ih item hitem (h.item hitem)
  | obj fields ih =>
    rw [move_obj]
    refine moved_obj_iff.2 ⟨⟨?_, fun pointer hpointer => ?_⟩, fun field hfield => ?_⟩
    -- what the older flag held stands at the newer one's key
    · rw [← Fields.get?_eq_none_iff, get?_moveObject_eq h.keys, movedAt, if_pos rfl]
    -- a text at the key of pointers was a text there before
    · have hget := Fields.get?_of_mem (nodup_keys_moveObject h.keys) hpointer
      rw [get?_moveObject_eq h.keys, movedAt, if_neg (by decide), if_neg (by decide)] at hget
      obtain ⟨source, -, hsource⟩ := Option.map_eq_some_iff.1 hget
      cases source with
      | str text =>
        rw [← Json.str.inj hsource]
        exact not_isOld_movePointer text
      | _ => cases hsource
    · obtain ⟨source, hsource, hvalue⟩ := exists_source h.keys hfield
      rw [hvalue]
      rcases moveAt_cases source.1 source.2 with hflat | hmove
      · exact moved_of_objects hflat
      · rw [hmove]; exact ih source hsource (h.field hsource)

/-- **A value with nothing of the older dialect is left as it is.** -/
theorem move_of_moved (h : Moved value) : move value = value := by
  induction value using Json.induct with
  | leaf value hfields hitems => exact move_eq_self hfields hitems
  | arr items ih =>
    rw [move_arr]
    exact congrArg Json.arr ((List.map_congr_left fun item hitem =>
      ih item hitem (moved_arr_iff.1 h item hitem)).trans (List.map_id items))
  | obj fields ih =>
    obtain ⟨⟨hflag, hpointers⟩, hparts⟩ := moved_obj_iff.1 h
    have hvalues : moveFields fields = fields := by
      rw [moveFields_eq_mapValues]
      exact Fields.mapWithKey_eq_self (f := fun _ => move) fun field hfield =>
        ih field hfield (hparts field hfield)
    have hrefs : Fields.update "$ref" moveRef fields = fields := by
      refine Fields.update_eq_self fun value hvalue => ?_
      cases value with
      | str pointer => exact congrArg Json.str (movePointer_of_not_isOld (hpointers pointer hvalue))
      | _ => rfl
    rw [move_obj, hvalues, moveObject, hrefs, renameNullable_of_notMem hflag]

/-- **An upgraded document has no pointer into the tables of the older dialect and none of
    its null flags**, at any depth.  Moving a value twice is moving it once, and a value is
    left as it is just if it has neither. -/
theorem moved_upgrade {root : List (String × Json)} (hroot : (Json.obj root).DistinctKeys)
    (hvalue : value.DistinctKeys) :
    Moved (Json.obj root).upgrade ∧ move (move value) = move value ∧
      (move value = value ↔ Moved value) := by
  have hmoved := moved_move hvalue
  exact ⟨moved_move (distinctKeys_document hroot), move_of_moved hmoved,
    fun h => h ▸ hmoved, move_of_moved⟩

/-- Older pointers and null flags: in a schema, in a reusable body, in an example, and
    beside a null flag of the newer dialect. -/
def archive : List (String × Json) := [
  ("swagger", .str "2.0"),
  ("definitions", .obj [
    ("Letter", .obj [
      ("x-nullable", .bool true),
      ("properties", .obj [("sender", .obj [("$ref", .str "#/definitions/Person")])]),
      ("example", .obj [("$ref", .str "#/responses/lost")])]),
    ("Person", .obj [("nullable", .bool false), ("x-nullable", .bool true)])]),
  ("parameters", .obj [
    ("letter", .obj [
      ("name", .str "letter"), ("in", .str "body"),
      ("schema", .obj [("$ref", .str "#/definitions/Letter")])])]),
  ("paths", .obj [
    ("/letters", .obj [
      ("post", .obj [("parameters", .arr [.obj [("$ref", .str "#/parameters/letter")]])])])])]

theorem moved_upgrade_archive :
    (Json.obj archive).DistinctKeys ∧ Moved (Json.obj archive).upgrade ∧
      move (move (.obj archive)) = move (.obj archive) ∧
      (move (.obj archive) = .obj archive ↔ Moved (.obj archive)) := by
  have harchive : (Json.obj archive).DistinctKeys := by decide +kernel
  exact ⟨harchive, moved_upgrade harchive harchive⟩

end ApiDigest.Upgrade
