/-
  Pointers that are moved, and pointers that are followed.

  Upgrading moves every pointer to the new place of its table, and bundling puts
  the part in its place that the pointer leads to.  So a pointer to a reusable part
  of an old document comes to be that part.

  * `Upgrade.get?_moveObject_eq` is what a key of an object holds after its pointers
    were moved;
  * `Bundle.inline_of_pointerless` and `Bundle.inline_of_target`: a value that
    points nowhere stays, and a pointer is replaced;
  * `Upgrade.Resolves` speaks of parts that are written in place or by a pointer to
    a reusable one, and `Upgrade.deref` is the part that is meant;
  * `Upgrade.inline_move_of_isPlain` and `Upgrade.inline_move_of_soleName?` are the
    statement above.
-/
import ApiDigest.Bundle
import ApiDigest.Proofs.Lookup
import ApiDigest.Upgrade

namespace ApiDigest

/-! ## Texts -/

theorem Text.stripStart?_append : ∀ start text : List Char,
    stripStart? start (start ++ text) = some text
  | [], _ => rfl
  | c :: start, text => by simp [stripStart?, stripStart?_append start text]

theorem Text.stripStart?_eq_some : ∀ {start text rest : List Char},
    stripStart? start text = some rest → text = start ++ rest
  | [], text, rest, h => by cases h; rfl
  | s :: start, c :: text, rest, h => by
    rw [stripStart?] at h
    split_ifs at h with hc
    rw [hc, stripStart?_eq_some h, List.cons_append]

theorem Text.afterStart?_append (start name : String) :
    afterStart? start (start ++ name) = some name := by
  simp [afterStart?, stripStart?_append]

theorem Text.afterStart?_eq_some {start text name : String}
    (h : afterStart? start text = some name) : text = start ++ name := by
  obtain ⟨rest, hrest, rfl⟩ := Option.map_eq_some_iff.1 h
  rw [← String.toList_inj, String.toList_append, String.toList_ofList, stripStart?_eq_some hrest]

theorem Pointer.replaceMark_of_notMem {mark char : Char} : ∀ {text : List Char}, '~' ∉ text →
    replaceMark mark char text = text
  | [], _ => rfl
  | [_], _ => rfl
  | c :: d :: rest, h => by
    obtain ⟨hc, hrest⟩ := not_or.1 (mt List.mem_cons.2 h)
    simp [replaceMark, Ne.symm hc, replaceMark_of_notMem hrest]

/-- A name without tildes stands for itself. -/
theorem Pointer.unescape_of_notMem {name : String} (h : '~' ∉ name.toList) :
    unescape name = name := by
  rw [unescape, unescapeChars, replaceMark_of_notMem h, replaceMark_of_notMem h,
    String.ofList_toList]

/-! ## Moved values -/

namespace Upgrade

variable {fields : List (String × Json)} {k : String} {value : Json}

theorem moveFields_eq_mapValues : ∀ fields : List (String × Json),
    moveFields fields = Fields.mapValues move fields
  | [] => rfl
  | (key, value) :: rest => by
    rw [moveFields, moveFields_eq_mapValues rest]; rfl

theorem moveItems_eq_map : ∀ items : List Json, moveItems items = items.map move
  | [] => rfl
  | value :: rest => by rw [moveItems, moveItems_eq_map rest]; rfl

theorem move_obj (fields : List (String × Json)) :
    move (.obj fields) = .obj (moveObject (moveFields fields)) := by
  rw [move]

theorem move_arr (items : List Json) : move (.arr items) = .arr (items.map move) := by
  rw [move, moveItems_eq_map]

@[simp] theorem str?_move (value : Json) : (move value).str? = value.str? := by
  cases value <;> rfl

@[simp] theorem bool?_move (value : Json) : (move value).bool? = value.bool? := by
  cases value <;> rfl

/-- The value of a key once it is moved. -/
def moveAt (key : String) (value : Json) : Json :=
  if key = "$ref" then moveRef (move value) else move value

theorem moveAt_of_ne (h : k ≠ "$ref") (value : Json) : moveAt k value = move value := if_neg h

theorem map_moveAt (h : k ≠ "$ref") (value : Option Json) : value.map (moveAt k) = value.map move :=
  congrArg (Option.map · value) (funext (moveAt_of_ne h))

theorem moveAt_obj (key : String) (fields : List (String × Json)) :
    moveAt key (.obj fields) = move (.obj fields) := by
  unfold moveAt
  split_ifs <;> rfl

theorem update_moveFields (fields : List (String × Json)) (k : String) :
    Fields.get? k (Fields.update "$ref" moveRef (moveFields fields)) =
      (Fields.get? k fields).map (moveAt k) := by
  rw [Fields.get?_update, moveFields_eq_mapValues, Fields.get?_mapValues]
  split_ifs with h
  · rw [Option.map_map]
    exact congrArg (Option.map · _) (funext fun value => by simp [moveAt, h])
  · exact congrArg (Option.map · _) (funext fun value => (moveAt_of_ne h value).symm)

theorem keys_update_moveFields (fields : List (String × Json)) :
    Fields.keys (Fields.update "$ref" moveRef (moveFields fields)) = Fields.keys fields := by
  rw [Fields.keys_update, moveFields_eq_mapValues, Fields.keys_mapValues]

theorem renameNullable_of_notMem (h : "x-nullable" ∉ Fields.keys fields) :
    renameNullable fields = fields := by
  rw [renameNullable, Fields.get?_eq_none_iff.2 h]

/-- A null flag of the older dialect takes the place of a missing one of the newer. -/
theorem get?_renameNullable (hnd : (Fields.keys fields).Nodup) (k : String) :
    Fields.get? k (renameNullable fields) =
      if k = "x-nullable" then none
      else if k = "nullable" then
        (Fields.get? "nullable" fields).or (Fields.get? "x-nullable" fields)
      else Fields.get? k fields := by
  rw [renameNullable]
  cases hflag : Fields.get? "x-nullable" fields with
  | none =>
    by_cases hx : k = "x-nullable"
    · simp [hx, hflag]
    · by_cases hn : k = "nullable" <;> simp [hx, hn]
  | some flag =>
    have herase := Fields.get?_erase "x-nullable" hnd
    have hnullable : Fields.get? "nullable" (Fields.erase "x-nullable" fields) =
        Fields.get? "nullable" fields := by rw [herase, if_neg (by decide)]
    show Fields.get? k (if (Fields.get? "nullable" (Fields.erase "x-nullable" fields)).isSome then _
      else _) = _
    rw [hnullable]
    cases hnull : Fields.get? "nullable" fields with
    | some value =>
      show Fields.get? k (Fields.erase "x-nullable" fields) = _
      rw [herase]
      by_cases hx : k = "x-nullable"
      · simp [hx]
      · by_cases hn : k = "nullable" <;> simp [hx, hn, hnull]
    | none =>
      show Fields.get? k (Fields.insert "nullable" flag (Fields.erase "x-nullable" fields)) = _
      rw [Fields.get?_insert, herase]
      by_cases hx : k = "x-nullable"
      · simp [hx]
      · by_cases hn : k = "nullable" <;> simp [hx, hn]

theorem nodup_keys_moveObject (hnd : (Fields.keys fields).Nodup) :
    (Fields.keys (moveObject (moveFields fields))).Nodup := by
  rw [← keys_update_moveFields] at hnd
  rw [moveObject, renameNullable]
  cases Fields.get? "x-nullable" (Fields.update "$ref" moveRef (moveFields fields)) with
  | none => exact hnd
  | some flag =>
    have herase := Fields.nodup_keys_erase "x-nullable" hnd
    show (Fields.keys (if _ then _ else _)).Nodup
    split_ifs
    · exact herase
    · exact Fields.nodup_keys_insert _ _ herase

theorem keys_moveObject_subset (fields : List (String × Json)) :
    Fields.keys (moveObject (moveFields fields)) ⊆ "nullable" :: Fields.keys fields := by
  rw [← keys_update_moveFields fields, moveObject, renameNullable]
  set moved := Fields.update "$ref" moveRef (moveFields fields)
  cases Fields.get? "x-nullable" moved with
  | none => exact List.subset_cons_self _ _
  | some flag =>
    have herase := Fields.keys_erase_subset "x-nullable" moved
    show Fields.keys (if _ then _ else _) ⊆ _
    split_ifs with hnull
    · exact List.Subset.trans herase (List.subset_cons_self _ _)
    · rw [Fields.contains_iff] at hnull
      rw [Fields.keys_insert, if_neg hnull]
      intro key hkey
      rcases List.mem_append.1 hkey with hkey | hkey
      · exact List.mem_cons_of_mem _ (herase hkey)
      · exact List.mem_singleton.1 hkey ▸ List.mem_cons_self

/-- What a key of an object holds once it is moved. -/
def movedAt (fields : List (String × Json)) (key : String) : Option Json :=
  if key = "x-nullable" then none
  else if key = "nullable" then
    ((Fields.get? "nullable" fields).or (Fields.get? "x-nullable" fields)).map move
  else (Fields.get? key fields).map (moveAt key)

/-- **What every key holds once its object is moved.** -/
theorem get?_moveObject_eq (hnd : (Fields.keys fields).Nodup) (k : String) :
    Fields.get? k (moveObject (moveFields fields)) = movedAt fields k := by
  rw [← keys_update_moveFields] at hnd
  rw [moveObject, get?_renameNullable hnd, movedAt]
  simp only [update_moveFields]
  rw [map_moveAt (by decide), map_moveAt (by decide), Option.map_or]

/-- What a key holds then, the null flag aside. -/
theorem get?_moveObject (hnd : (Fields.keys fields).Nodup) (hx : k ≠ "x-nullable")
    (hn : k ≠ "nullable") :
    Fields.get? k (moveObject (moveFields fields)) = (Fields.get? k fields).map (moveAt k) := by
  rw [get?_moveObject_eq hnd, movedAt, if_neg hx, if_neg hn]

/-- Where no null flag has to be renamed, the keys and their order stay. -/
theorem moveObject_of_notMem (hx : "x-nullable" ∉ Fields.keys fields) :
    moveObject (moveFields fields) = Fields.update "$ref" moveRef (moveFields fields) := by
  rw [← keys_update_moveFields] at hx
  rw [moveObject, renameNullable_of_notMem hx]

theorem get?_moveObject_of_notMem (hx : "x-nullable" ∉ Fields.keys fields) (k : String) :
    Fields.get? k (moveObject (moveFields fields)) = (Fields.get? k fields).map (moveAt k) := by
  rw [moveObject_of_notMem hx, update_moveFields]

/-- A table of objects is moved entry by entry. -/
theorem moveObject_of_objects (hx : "x-nullable" ∉ Fields.keys fields)
    (hobj : ∀ field ∈ fields, field.2.fields?.isSome) :
    moveObject (moveFields fields) = Fields.mapValues move fields := by
  rw [moveObject_of_notMem hx, moveFields_eq_mapValues]
  clear hx
  induction fields with
  | nil => rfl
  | cons field rest ih =>
    obtain ⟨hfield, hrest⟩ := List.forall_mem_cons.1 hobj
    obtain ⟨key, value⟩ := field
    cases value with
    | obj inner =>
      rw [Fields.mapValues, List.map_cons, ← Fields.mapValues, Fields.update]
      split_ifs
      · rfl
      · rw [ih hrest]
    | _ => simp [Json.fields?] at hfield

/-! ### Pointers -/

/-- The pointer to a component. -/
def componentPointer (kind name : String) : String := "#/components/" ++ (kind ++ "/" ++ name)

theorem movePointer_parameters (name : String) :
    movePointer ("#/parameters/" ++ name) = componentPointer "parameters" name := by
  have hnew : componentPointer "parameters" name = "#/components/parameters/" ++ name := by
    rw [componentPointer, ← String.append_assoc, ← String.append_assoc]; rfl
  have hdefs : Text.afterStart? "#/definitions/" ("#/parameters/" ++ name) = none := by
    simp [Text.afterStart?, Text.stripStart?]
  simp [movePointer, movedTables, hnew, hdefs, Text.afterStart?_append]

theorem movePointer_responses (name : String) :
    movePointer ("#/responses/" ++ name) = componentPointer "responses" name := by
  have hnew : componentPointer "responses" name = "#/components/responses/" ++ name := by
    rw [componentPointer, ← String.append_assoc, ← String.append_assoc]; rfl
  have hdefs : Text.afterStart? "#/definitions/" ("#/responses/" ++ name) = none := by
    simp [Text.afterStart?, Text.stripStart?]
  have hparams : Text.afterStart? "#/parameters/" ("#/responses/" ++ name) = none := by
    simp [Text.afterStart?, Text.stripStart?]
  simp [movePointer, movedTables, hnew, hdefs, hparams, Text.afterStart?_append]

end Upgrade

/-! ## Followed pointers -/

namespace Bundle

variable {components : List (String × Json)} {value target : Json} {kind name : String}

theorem follow_of_pointerless (h : target? components value = none) :
    ∀ hops : ℕ, follow components hops value = value
  | 0 => rfl
  | hops + 1 => by rw [follow, h]

/-- What points nowhere stays. -/
theorem inline_of_pointerless (h : target? components value = none) :
    inline components value = value :=
  follow_of_pointerless h maxHops

/-- A pointer to what points nowhere is replaced by it. -/
theorem inline_of_target (h : target? components value = some target)
    (htarget : target? components target = none) : inline components value = target := by
  rw [inline, maxHops, follow, h]
  exact follow_of_pointerless htarget 7

theorem target?_of_text? (h : value.text? "$ref" = none) : target? components value = none := by
  rw [target?, h]; rfl

theorem kindAndName?_slash (hkind : '/' ∉ kind.toList) :
    kindAndName? (kind ++ "/" ++ name) = some (kind, Pointer.unescape name) := by
  have hall : ∀ c ∈ kind.toList, decide (c ≠ '/') = true := by
    intro c hc
    simpa using fun e : c = '/' => hkind (e ▸ hc)
  have hdrop : (kind ++ "/" ++ name).toList.dropWhile (· ≠ '/') = '/' :: name.toList := by
    simp only [String.toList_append, List.append_assoc]
    rw [List.dropWhile_append_of_pos hall]; rfl
  have htake : (kind ++ "/" ++ name).toList.takeWhile (· ≠ '/') = kind.toList := by
    simp only [String.toList_append, List.append_assoc]
    rw [List.takeWhile_append_of_pos hall]; simp
  rw [kindAndName?, hdrop, htake]
  simp

theorem slash_notMem_of_mem_kinds (h : kind ∈ kinds) : '/' ∉ kind.toList := by
  simp only [kinds, List.mem_cons, List.not_mem_nil, or_false] at h
  rcases h with rfl | rfl | rfl <;> decide

/-- A pointer to a component of one of the kinds that are replaced. -/
theorem resolve?_componentPointer (hkind : kind ∈ kinds) (name : String) :
    resolve? components (Upgrade.componentPointer kind name) =
      (Fields.get? kind components).bind (Json.get? (Pointer.unescape name)) := by
  rw [resolve?, Upgrade.componentPointer, Text.afterStart?_append, Option.bind_some,
    kindAndName?_slash (slash_notMem_of_mem_kinds hkind)]
  simp [hkind]

theorem resolve?_component (hkind : kind ∈ kinds) (hname : '~' ∉ name.toList) :
    resolve? components (Upgrade.componentPointer kind name) =
      (Fields.get? kind components).bind (Json.get? name) := by
  rw [resolve?_componentPointer hkind, Pointer.unescape_of_notMem hname]

end Bundle

/-! ## Parts in place and by pointer -/

namespace Upgrade

/-- An object that is no pointer. -/
def IsPlain (value : Json) : Prop := ∃ fields ∈ value.fields?, "$ref" ∉ Fields.keys fields

/-- The name behind a fixed beginning of a pointer, if the value is nothing but the
    pointer. -/
def soleName? (start : String) : Json → Option String
  | .obj [("$ref", .str pointer)] => Text.afterStart? start pointer
  | _ => none

/-- The part that is meant: the entry of the table that a pointer names, or else the
    value itself. -/
def deref (start : String) (table : List (String × Json)) (value : Json) : Json :=
  ((soleName? start value).bind fun name => Fields.get? name table).getD value

/-- A part is an object in place, or nothing but a pointer to such an object in the
    table, by a name that needs no escapes. -/
def Resolves (start : String) (table : List (String × Json)) (value : Json) : Prop :=
  IsPlain value ∨ ∃ name ∈ soleName? start value, '~' ∉ name.toList ∧
    ∃ target ∈ Fields.get? name table, IsPlain target

instance (value : Json) : Decidable (IsPlain value) :=
  inferInstanceAs (Decidable (∃ fields ∈ value.fields?, "$ref" ∉ Fields.keys fields))

instance (start : String) (table : List (String × Json)) (value : Json) :
    Decidable (Resolves start table value) :=
  inferInstanceAs (Decidable (_ ∨ ∃ name ∈ soleName? start value, _))

variable {start kind name : String} {table components fields : List (String × Json)}
  {value target : Json}

theorem isPlain_obj_iff : IsPlain (.obj fields) ↔ "$ref" ∉ Fields.keys fields := by
  simp [IsPlain, Json.fields?]

theorem IsPlain.exists_obj (h : IsPlain value) :
    ∃ fields, value = .obj fields ∧ "$ref" ∉ Fields.keys fields := by
  obtain ⟨fields, hfields, href⟩ := h
  exact ⟨fields, Json.eq_obj_of_fields? hfields, href⟩

theorem eq_of_soleName? (h : soleName? start value = some name) :
    value = .obj [("$ref", .str (start ++ name))] := by
  unfold soleName? at h
  split at h
  · rw [Text.afterStart?_eq_some h]
  · cases h

theorem soleName?_of_isPlain (h : IsPlain value) : soleName? start value = none := by
  cases hname : soleName? start value with
  | none => rfl
  | some name =>
    rw [eq_of_soleName? hname, isPlain_obj_iff] at h
    simp at h

theorem deref_of_isPlain (h : IsPlain value) : deref start table value = value := by
  rw [deref, soleName?_of_isPlain h]; rfl

theorem deref_of_soleName? (hname : soleName? start value = some name)
    (htarget : Fields.get? name table = some target) : deref start table value = target := by
  rw [deref, hname, Option.bind_some, htarget]; rfl

theorem Resolves.isPlain_deref (h : Resolves start table value) :
    IsPlain (deref start table value) := by
  rcases h with h | ⟨name, hname, -, target, htarget, hplain⟩
  · rwa [deref_of_isPlain h]
  · rwa [deref_of_soleName? hname htarget]

/-- What is no pointer is none when it is moved. -/
theorem text?_move_of_isPlain (h : IsPlain value) : (move value).text? "$ref" = none := by
  obtain ⟨fields, rfl, href⟩ := h.exists_obj
  have hmoved : "$ref" ∉ Fields.keys (moveObject (moveFields fields)) := fun hmem => by
    have := keys_moveObject_subset fields hmem
    simp [href] at this
  rw [move_obj, Json.text?_eq_none hmoved]

theorem inline_move_of_isPlain (h : IsPlain value) :
    Bundle.inline components (move value) = move value :=
  Bundle.inline_of_pointerless (Bundle.target?_of_text? (text?_move_of_isPlain h))

/-- **A moved pointer leads to the component of its name**, if that points nowhere. -/
theorem inline_move_of_soleName?
    (hmove : movePointer (start ++ name) = componentPointer kind name) (hkind : kind ∈ Bundle.kinds)
    (hname : soleName? start value = some name) (htilde : '~' ∉ name.toList)
    (htarget : (Fields.get? kind components).bind (Json.get? name) = some target)
    (hplain : target.text? "$ref" = none) :
    Bundle.inline components (move value) = target := by
  refine Bundle.inline_of_target ?_ (Bundle.target?_of_text? hplain)
  have htext : (move value).text? "$ref" = some (componentPointer kind name) := by
    rw [eq_of_soleName? hname, ← hmove]; rfl
  rw [Bundle.target?, htext, Option.bind_some, Bundle.resolve?_component hkind htilde, htarget]

end Upgrade
end ApiDigest
