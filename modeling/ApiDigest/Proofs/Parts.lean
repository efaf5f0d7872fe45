/-
  Parts of values.

  A value is an object or an array and has parts, or it is a leaf.  A place is said by
  the steps that lead to it from the root, where the items of an array are not told
  apart, so a class of places is a predicate on lists of steps.

  * `Json.induct` is the induction on the parts of a value;
  * `Json.changeAt` changes what stands at the places of a class, and nothing else;
  * `Json.partsAt` is what stands there, and `Json.partsAt_changeAt` what stands there
    after a change;
  * `Json.changeAt_eq_self`: a change that leaves these parts alone leaves the value.
-/
import ApiDigest.Proofs.DistinctKeys

namespace ApiDigest

/-! ## Fields by their keys -/

namespace Fields

variable {α β : Type} {fields others : List (String × α)}

/-- Changes every value, with regard to its key. -/
def mapWithKey (f : String → α → β) (fields : List (String × α)) : List (String × β) :=
  fields.map fun (key, value) => (key, f key value)

@[simp] theorem keys_mapWithKey (f : String → α → β) (fields : List (String × α)) :
    keys (mapWithKey f fields) = keys fields := by
  simp [keys, mapWithKey]

theorem get?_mapWithKey (f : String → α → β) (fields : List (String × α)) (k : String) :
    get? k (mapWithKey f fields) = (get? k fields).map (f k) := by
  induction fields with
  | nil => rfl
  | cons field rest ih =>
    rw [mapWithKey, List.map_cons, ← mapWithKey, get?_cons, get?_cons, ih]
    by_cases h : field.1 = k
    · subst h; simp
    · simp [h]

theorem mapWithKey_eq_self {f : String → α → α}
    (h : ∀ field ∈ fields, f field.1 field.2 = field.2) : mapWithKey f fields = fields := by
  refine (List.map_congr_left fun field hmem => ?_).trans (List.map_id fields)
  exact congrArg (Prod.mk field.1) (h field hmem)

theorem update_eq_self {key : String} {f : α → α}
    (h : ∀ value, (key, value) ∈ fields → f value = value) :
    update key f fields = fields := by
  induction fields with
  | nil => rfl
  | cons field rest ih =>
    obtain ⟨k, v⟩ := field
    rw [update]
    split_ifs with hk
    · rw [h v (hk ▸ List.mem_cons_self)]
    · rw [ih fun value hmem => h value (List.mem_cons_of_mem _ hmem)]

/-- **Fields with the same different keys are the same** if each key holds the same. -/
theorem eq_of_get? (hkeys : keys fields = keys others) (hnd : (keys fields).Nodup)
    (h : ∀ k, get? k fields = get? k others) : fields = others := by
  induction fields generalizing others with
  | nil => exact (List.map_eq_nil_iff.1 hkeys.symm).symm
  | cons field rest ih =>
    cases others with
    | nil => cases hkeys
    | cons other others =>
      obtain ⟨key, value⟩ := field
      obtain ⟨key', value'⟩ := other
      obtain ⟨rfl, hrest⟩ := List.cons.inj hkeys
      obtain ⟨hnotin, hnd⟩ := List.nodup_cons.1 hnd
      have hvalue : value = value' := by simpa [get?_cons] using h key
      have htail : rest = others := by
        refine ih hrest hnd fun k => ?_
        by_cases hk : key = k
        · -- the key of the first field does not come again in either list
          subst hk
          have hnotin' : key ∉ keys others := fun hmem => hnotin (hrest ▸ hmem)
          rw [get?_eq_none_iff.2 hnotin, get?_eq_none_iff.2 hnotin']
        · simpa [get?_cons, hk] using h k
      rw [hvalue, htail]

end Fields

namespace Json

/-! ## Induction -/

/-- **What passes from the parts of a value to the value holds of every value.** -/
@[elab_as_elim]
theorem induct {motive : Json → Prop}
    (leaf : ∀ value : Json, value.fields? = none → value.items? = none → motive value)
    (arr : ∀ items : List Json, (∀ item ∈ items, motive item) → motive (.arr items))
    (obj : ∀ fields : List (String × Json), (∀ field ∈ fields, motive field.2) →
      motive (.obj fields))
    (value : Json) : motive value :=
  @Json.rec motive (fun items => ∀ item ∈ items, motive item)
    (fun fields => ∀ field ∈ fields, motive field.2) (fun field => motive field.2)
    (leaf _ rfl rfl) (fun _ => leaf _ rfl rfl) (fun _ => leaf _ rfl rfl) (fun _ => leaf _ rfl rfl)
    arr obj
    (fun _ h => absurd h List.not_mem_nil) (fun _ _ h hrest => List.forall_mem_cons.2 ⟨h, hrest⟩)
    (fun _ h => absurd h List.not_mem_nil) (fun _ _ h hrest => List.forall_mem_cons.2 ⟨h, hrest⟩)
    (fun _ _ h => h) value

/-! ## Places -/

/-- A step from a value to one of its parts. -/
inductive Step where
  /-- To the value of a key. -/
  | key (name : String)
  /-- To an item of an array, whichever it is. -/
  | item
deriving DecidableEq

/-- A class of places, seen from the part that a step leads to. -/
def under (step : Step) (place : List Step → Bool) : List Step → Bool :=
  fun steps => place (step :: steps)

mutual

/-- Changes what stands at the places of a class. -/
def changeAt (f : Json → Json) (place : List Step → Bool) : Json → Json
  | .obj fields => if place [] then f (.obj fields) else .obj (changeFieldsAt f place fields)
  | .arr items => if place [] then f (.arr items) else .arr (changeItemsAt f place items)
  | other => if place [] then f other else other

/-- Does so in the values of fields. -/
def changeFieldsAt (f : Json → Json) (place : List Step → Bool) :
    List (String × Json) → List (String × Json)
  | [] => []
  | (key, value) :: rest =>
    (key, changeAt f (under (.key key) place) value) :: changeFieldsAt f place rest

/-- Does so in items. -/
def changeItemsAt (f : Json → Json) (place : List Step → Bool) : List Json → List Json
  | [] => []
  | value :: rest => changeAt f (under .item place) value :: changeItemsAt f place rest

end

mutual

/-- What stands at the places of a class, in order. -/
def partsAt (place : List Step → Bool) : Json → List Json
  | .obj fields => if place [] then [.obj fields] else fieldPartsAt place fields
  | .arr items => if place [] then [.arr items] else itemPartsAt place items
  | other => if place [] then [other] else []

/-- What stands there in the values of fields. -/
def fieldPartsAt (place : List Step → Bool) : List (String × Json) → List Json
  | [] => []
  | (key, value) :: rest => partsAt (under (.key key) place) value ++ fieldPartsAt place rest

/-- What stands there in items. -/
def itemPartsAt (place : List Step → Bool) : List Json → List Json
  | [] => []
  | value :: rest => partsAt (under .item place) value ++ itemPartsAt place rest

end

variable {f : Json → Json} {place : List Step → Bool} {value : Json}

/-! ### One level of a value -/

theorem changeFieldsAt_eq : ∀ fields : List (String × Json), changeFieldsAt f place fields =
    Fields.mapWithKey (fun key => changeAt f (under (.key key) place)) fields
  | [] => rfl
  | (key, value) :: rest => by rw [changeFieldsAt, changeFieldsAt_eq rest]; rfl

theorem changeItemsAt_eq : ∀ items : List Json,
    changeItemsAt f place items = items.map (changeAt f (under .item place))
  | [] => rfl
  | value :: rest => by rw [changeItemsAt, changeItemsAt_eq rest]; rfl

theorem fieldPartsAt_eq : ∀ fields : List (String × Json), fieldPartsAt place fields =
    fields.flatMap fun field => partsAt (under (.key field.1) place) field.2
  | [] => rfl
  | (key, value) :: rest => by rw [fieldPartsAt, fieldPartsAt_eq rest]; rfl

theorem itemPartsAt_eq : ∀ items : List Json,
    itemPartsAt place items = items.flatMap (partsAt (under .item place))
  | [] => rfl
  | value :: rest => by rw [itemPartsAt, itemPartsAt_eq rest]; rfl

theorem changeAt_here (h : place [] = true) (value : Json) : changeAt f place value = f value := by
  cases value <;> rw [changeAt, if_pos h] <;> simp

theorem partsAt_here (h : place [] = true) (value : Json) : partsAt place value = [value] := by
  cases value <;> rw [partsAt, if_pos h] <;> simp

section
variable (h : place [] = false)
include h

theorem changeAt_obj (fields : List (String × Json)) : changeAt f place (.obj fields) =
    .obj (Fields.mapWithKey (fun key => changeAt f (under (.key key) place)) fields) := by
  rw [changeAt, h, changeFieldsAt_eq]; rfl

theorem changeAt_arr (items : List Json) :
    changeAt f place (.arr items) = .arr (items.map (changeAt f (under .item place))) := by
  rw [changeAt, h, changeItemsAt_eq]; rfl

theorem changeAt_leaf (hfields : value.fields? = none) (hitems : value.items? = none) :
    changeAt f place value = value := by
  cases value with
  | obj => cases hfields
  | arr => cases hitems
  | _ => simp [changeAt, h]

theorem partsAt_obj (fields : List (String × Json)) : partsAt place (.obj fields) =
    fields.flatMap fun field => partsAt (under (.key field.1) place) field.2 := by
  rw [partsAt, h, fieldPartsAt_eq]; rfl

theorem partsAt_arr (items : List Json) :
    partsAt place (.arr items) = items.flatMap (partsAt (under .item place)) := by
  rw [partsAt, h, itemPartsAt_eq]; rfl

theorem partsAt_leaf (hfields : value.fields? = none) (hitems : value.items? = none) :
    partsAt place value = [] := by
  cases value with
  | obj => cases hfields
  | arr => cases hitems
  | _ => simp [partsAt, h]

end

/-! ### Changes -/

/-- **After a change the changed parts stand at the places.** -/
theorem partsAt_changeAt (f : Json → Json) (place : List Step → Bool) (value : Json) :
    partsAt place (changeAt f place value) = (partsAt place value).map f := by
  induction value using induct generalizing place with
  | leaf value hfields hitems =>
    cases h : place [] with
    | true => rw [changeAt_here h, partsAt_here h, partsAt_here h]; rfl
    | false => rw [changeAt_leaf h hfields hitems, partsAt_leaf h hfields hitems]; rfl
  | arr items ih =>
    cases h : place [] with
    | true => rw [changeAt_here h, partsAt_here h, partsAt_here h]; rfl
    | false =>
      rw [changeAt_arr h, partsAt_arr h, partsAt_arr h, List.flatMap_map, List.map_flatMap]
      exact List.flatMap_congr fun item hitem => ih item hitem _
  | obj fields ih =>
    cases h : place [] with
    | true => rw [changeAt_here h, partsAt_here h, partsAt_here h]; rfl
    | false =>
      rw [changeAt_obj h, partsAt_obj h, partsAt_obj h, Fields.mapWithKey, List.flatMap_map,
        List.map_flatMap]
      exact List.flatMap_congr fun field hfield => ih field hfield _

/-- **A change that leaves the parts at its places alone leaves the value.** -/
theorem changeAt_eq_self (h : ∀ part ∈ partsAt place value, f part = part) :
    changeAt f place value = value := by
  induction value using induct generalizing place with
  | leaf value hfields hitems =>
    cases hhere : place [] with
    | true => rw [changeAt_here hhere, h value (by simp [partsAt_here hhere])]
    | false => exact changeAt_leaf hhere hfields hitems
  | arr items ih =>
    cases hhere : place [] with
    | true => rw [changeAt_here hhere, h _ (by simp [partsAt_here hhere])]
    | false =>
      rw [partsAt_arr hhere] at h
      rw [changeAt_arr hhere]
      refine congrArg Json.arr ((List.map_congr_left fun item hitem => ?_).trans (List.map_id _))
      exact ih item hitem fun part hpart => h part (List.mem_flatMap.2 ⟨item, hitem, hpart⟩)
  | obj fields ih =>
    cases hhere : place [] with
    | true => rw [changeAt_here hhere, h _ (by simp [partsAt_here hhere])]
    | false =>
      rw [partsAt_obj hhere] at h
      rw [changeAt_obj hhere]
      refine congrArg Json.obj (Fields.mapWithKey_eq_self fun field hfield => ?_)
      exact ih field hfield fun part hpart => h part (List.mem_flatMap.2 ⟨field, hfield, hpart⟩)

/-- No place, no parts. -/
theorem partsAt_nowhere (h : ∀ steps, place steps = false) (value : Json) :
    partsAt place value = [] := by
  induction value using induct generalizing place with
  | leaf value hfields hitems => exact partsAt_leaf (h []) hfields hitems
  | arr items ih =>
    rw [partsAt_arr (h [])]
    exact List.flatMap_eq_nil_iff.2 fun item hitem => ih item hitem fun steps => h _
  | obj fields ih =>
    rw [partsAt_obj (h [])]
    exact List.flatMap_eq_nil_iff.2 fun field hfield => ih field hfield fun steps => h _

theorem changeAt_nowhere (h : ∀ steps, place steps = false) (value : Json) :
    changeAt f place value = value :=
  changeAt_eq_self (by simp [partsAt_nowhere h])

/-- Places right below an array are its items. -/
theorem changeAt_items (hhere : place [] = false) (hitem : place [.item] = true)
    (hkey : ∀ key steps, place (.key key :: steps) = false) (value : Json) :
    changeAt f place value = value.mapItems f := by
  cases value with
  | arr items =>
    rw [changeAt_arr hhere]
    exact congrArg Json.arr (List.map_congr_left fun item _ => changeAt_here hitem item)
  | obj fields =>
    rw [changeAt_obj hhere]
    exact congrArg Json.obj (Fields.mapWithKey_eq_self fun field _ => changeAt_nowhere (hkey _) _)
  | _ => exact changeAt_leaf hhere rfl rfl

/-- Places below the keys of an object only. -/
theorem changeAt_fields (hhere : place [] = false)
    (hitem : ∀ steps, place (.item :: steps) = false) (value : Json) :
    changeAt f place value =
      value.mapFields (Fields.mapWithKey fun key => changeAt f (under (.key key) place)) := by
  cases value with
  | obj fields => exact changeAt_obj hhere fields
  | arr items =>
    rw [changeAt_arr hhere]
    exact congrArg Json.arr ((List.map_congr_left fun item _ =>
      changeAt_nowhere hitem item).trans (List.map_id items))
  | _ => exact changeAt_leaf hhere rfl rfl

/-- Places right below an object are its values. -/
theorem changeAt_values (hhere : place [] = false) (hkey : ∀ key, place [.key key] = true)
    (hitem : ∀ steps, place (.item :: steps) = false) (value : Json) :
    changeAt f place value = value.mapFields (Fields.mapValues f) := by
  rw [changeAt_fields hhere hitem]
  exact congrArg (fun change => value.mapFields change) (funext fun fields =>
    List.map_congr_left fun field _ =>
      congrArg (Prod.mk field.1) (changeAt_here (hkey field.1) field.2))

/-- Keys stay distinct if the changed parts have distinct keys. -/
theorem DistinctKeys.changeAt (hf : ∀ value, value.DistinctKeys → (f value).DistinctKeys)
    (h : value.DistinctKeys) : (changeAt f place value).DistinctKeys := by
  induction value using induct generalizing place with
  | leaf value hfields hitems =>
    cases hhere : place [] with
    | true => rw [changeAt_here hhere]; exact hf _ h
    | false => rwa [changeAt_leaf hhere hfields hitems]
  | arr items ih =>
    cases hhere : place [] with
    | true => rw [changeAt_here hhere]; exact hf _ h
    | false =>
      rw [changeAt_arr hhere, distinctKeys_arr_iff]
      intro part hpart
      obtain ⟨item, hitem, rfl⟩ := List.mem_map.1 hpart
      exact ih item hitem (h.item hitem)
  | obj fields ih =>
    cases hhere : place [] with
    | true => rw [changeAt_here hhere]; exact hf _ h
    | false =>
      rw [changeAt_obj hhere, distinctKeys_obj_iff, Fields.keys_mapWithKey]
      refine ⟨h.keys, fun part hpart => ?_⟩
      obtain ⟨field, hfield, rfl⟩ := List.mem_map.1 hpart
      exact ih field hfield (h.field hfield)

end Json
end ApiDigest
