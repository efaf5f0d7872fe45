/-
  What a key holds after a change of some fields.

  Fields are looked up by their key, so two lists of fields with different keys
  are as good as each other if they hold the same fields in any order.  Removing a
  field moves another one, which no look-up sees.

  * `Fields.get?_insert`, `Fields.get?_update` and `Fields.get?_mapValues` need no
    condition;
  * `Fields.get?_filterMap`, `Fields.get?_erase` and `Upgrade.get?_eraseAll` ask for
    different keys;
  * `Fields.get?_ofList` and `Fields.keys_ofList`: of equal keys the last value and the
    first place stay;
  * `Table.get?_ofList` and `Table.entries_ofList`: of different keys nothing falls
    together in a table.
-/
import ApiDigest.Table
import ApiDigest.Upgrade.Parameters
import Mathlib.Data.List.Induction
import Mathlib.Data.List.Nodup

namespace ApiDigest

namespace Fields

variable {α β : Type} {fields others : List (String × α)} {key k : String} {value : α}

/-! ## Keys and values -/

@[simp] theorem keys_nil : keys ([] : List (String × α)) = [] := rfl

@[simp] theorem keys_cons (field : String × α) (rest : List (String × α)) :
    keys (field :: rest) = field.1 :: keys rest := rfl

@[simp] theorem keys_append (fields others : List (String × α)) :
    keys (fields ++ others) = keys fields ++ keys others := List.map_append

@[simp] theorem get?_nil (key : String) : get? key ([] : List (String × α)) = none := rfl

theorem get?_cons (key : String) (field : String × α) (rest : List (String × α)) :
    get? key (field :: rest) = if field.1 = key then some field.2 else get? key rest := rfl

theorem get?_eq_none_iff : get? key fields = none ↔ key ∉ keys fields := by
  induction fields with
  | nil => simp
  | cons field rest ih =>
    rw [get?_cons, keys_cons, List.mem_cons]
    by_cases h : field.1 = key
    · simp [h]
    · simp [h, ih, Ne.symm h]

theorem contains_eq_false_iff : contains key fields = false ↔ key ∉ keys fields := by
  rw [contains, Option.isSome_eq_false_iff, Option.isNone_iff_eq_none, get?_eq_none_iff]

theorem contains_iff : contains key fields = true ↔ key ∈ keys fields := by
  rw [← not_iff_not, Bool.not_eq_true, contains_eq_false_iff]

theorem mem_keys_of_mem (h : (key, value) ∈ fields) : key ∈ keys fields :=
  List.mem_map_of_mem (f := Prod.fst) h

/-- Of different keys each holds the value that stands beside it. -/
theorem get?_of_mem (hnd : (keys fields).Nodup) (h : (key, value) ∈ fields) :
    get? key fields = some value := by
  induction fields with
  | nil => simp at h
  | cons field rest ih =>
    obtain ⟨hfield, hrest⟩ := List.nodup_cons.1 hnd
    rcases List.mem_cons.1 h with rfl | h
    · simp [get?_cons]
    · have hne : field.1 ≠ key := fun e => hfield (e ▸ mem_keys_of_mem h)
      rw [get?_cons, if_neg hne, ih hrest h]

/-- **The order of fields with different keys is not seen.** -/
theorem get?_perm (h : fields.Perm others) (hnd : (keys fields).Nodup) (key : String) :
    get? key fields = get? key others := by
  have hnd' : (keys others).Nodup := (h.map Prod.fst).nodup_iff.1 hnd
  cases hget : get? key others with
  | none =>
    rw [get?_eq_none_iff] at hget ⊢
    exact fun hmem => hget ((h.map Prod.fst).mem_iff.1 hmem)
  | some value => exact get?_of_mem hnd (h.mem_iff.2 (mem_of_get? hget))

theorem get?_append (key : String) (fields others : List (String × α)) :
    get? key (fields ++ others) = (get? key fields).or (get? key others) := by
  induction fields with
  | nil => rfl
  | cons field rest ih =>
    by_cases h : field.1 = key <;> simp [get?_cons, h, ih]

/-! ## Putting values -/

theorem get?_insert (key : String) (value : α) (fields : List (String × α)) (k : String) :
    get? k (insert key value fields) = if k = key then some value else get? k fields := by
  induction fields with
  | nil => by_cases h : k = key <;> simp [insert, get?_cons, h, Ne.symm]
  | cons field rest ih =>
    obtain ⟨k', v⟩ := field
    by_cases hk : k' = key
    · subst hk
      by_cases h : k = k'
      · simp [insert, get?_cons, h]
      · simp [insert, get?_cons, h, Ne.symm h]
    · by_cases h : k' = k
      · subst h; simp [insert, get?_cons, hk]
      · simp [insert, get?_cons, hk, h, ih]

@[simp] theorem keys_update (key : String) (f : α → α) (fields : List (String × α)) :
    keys (update key f fields) = keys fields := by
  induction fields with
  | nil => rfl
  | cons field rest ih =>
    obtain ⟨k', v⟩ := field
    by_cases h : k' = key <;> simp [update, h, ih]

theorem get?_update (key : String) (f : α → α) (fields : List (String × α)) (k : String) :
    get? k (update key f fields) = if k = key then (get? k fields).map f else get? k fields := by
  induction fields with
  | nil => simp [update]
  | cons field rest ih =>
    obtain ⟨k', v⟩ := field
    by_cases hk : k' = key
    · subst hk
      by_cases h : k = k'
      · simp [update, get?_cons, h]
      · simp [update, get?_cons, h, Ne.symm h]
    · by_cases h : k' = k
      · subst h; simp [update, get?_cons, hk]
      · simp [update, get?_cons, hk, h, ih]

@[simp] theorem keys_mapValues (f : α → β) (fields : List (String × α)) :
    keys (mapValues f fields) = keys fields := by
  simp [keys, mapValues]

theorem get?_mapValues (f : α → β) (fields : List (String × α)) (k : String) :
    get? k (mapValues f fields) = (get? k fields).map f := by
  induction fields with
  | nil => rfl
  | cons field rest ih =>
    rw [mapValues, List.map_cons, ← mapValues, get?_cons, get?_cons, ih]
    split_ifs <;> rfl

/-! Fields may be dropped and their values changed, as long as keys stay with their fields. -/

theorem keys_filterMap_sublist {f : String × α → Option (String × β)}
    (hf : ∀ field out, f field = some out → out.1 = field.1) (fields : List (String × α)) :
    (keys (fields.filterMap f)).Sublist (keys fields) := by
  induction fields with
  | nil => exact List.Sublist.slnil
  | cons field rest ih =>
    cases h : f field with
    | none => simpa [h] using ih.cons field.1
    | some out =>
      rw [List.filterMap_cons_some h, keys_cons, keys_cons, hf field out h]
      exact ih.cons_cons field.1

/-- **Of different keys, each holds what its value came to.** -/
theorem get?_filterMap {f : String × α → Option (String × β)}
    (hf : ∀ field out, f field = some out → out.1 = field.1) (hnd : (keys fields).Nodup)
    (k : String) : get? k (fields.filterMap f) =
      (get? k fields).bind fun value => (f (k, value)).map Prod.snd := by
  induction fields with
  | nil => rfl
  | cons field rest ih =>
    obtain ⟨hfield, hrest⟩ := List.nodup_cons.1 hnd
    have htail := ih hrest
    obtain ⟨k', v⟩ := field
    by_cases h : k' = k
    · -- the key does not come again, so a dropped field leaves nothing behind
      subst h
      rw [get?_eq_none_iff.2 hfield] at htail
      cases hout : f (k', v) with
      | none => simpa [get?_cons, hout] using htail
      | some out => simp [get?_cons, hout, hf _ _ hout]
    · cases hout : f (k', v) with
      | none => simpa [get?_cons, hout, h] using htail
      | some out =>
        have hne : out.1 ≠ k := fun e => h ((hf _ _ hout).symm.trans e)
        simpa [get?_cons, hout, h, hne] using htail

theorem filterMapValues_keeps (f : α → Option β) (field : String × α) (out : String × β)
    (h : (f field.2).map (fun value => (field.1, value)) = some out) : out.1 = field.1 := by
  obtain ⟨value, -, rfl⟩ := Option.map_eq_some_iff.1 h
  rfl

theorem keys_filterMapValues_sublist (f : α → Option β) (fields : List (String × α)) :
    (keys (filterMapValues f fields)).Sublist (keys fields) :=
  keys_filterMap_sublist (filterMapValues_keeps f) fields

theorem get?_filterMapValues (f : α → Option β) (hnd : (keys fields).Nodup) (k : String) :
    get? k (filterMapValues f fields) = (get? k fields).bind f := by
  rw [filterMapValues, get?_filterMap (filterMapValues_keeps f) hnd]
  refine congrArg _ (funext fun value => ?_)
  cases f value <;> simp

theorem flatMap_filterMapValues {γ : Type} (f : α → Option β) (g : String × β → List γ)
    (fields : List (String × α)) : (filterMapValues f fields).flatMap g =
      fields.flatMap fun field => ((f field.2).map fun value => g (field.1, value)).getD [] := by
  induction fields with
  | nil => rfl
  | cons field rest ih =>
    rw [List.flatMap_cons, ← ih]
    cases hvalue : f field.2 <;> simp [filterMapValues, hvalue]

theorem get?_filter (p : String × α → Bool) (hnd : (keys fields).Nodup) (k : String) :
    get? k (fields.filter p) = (get? k fields).filter fun value => p (k, value) := by
  have hkeeps : ∀ field out : String × α, Option.guard p field = some out → out.1 = field.1 := by
    intro field out h
    rw [(Option.guard_eq_some_iff.1 h).1]
  rw [← List.filterMap_eq_filter, get?_filterMap hkeeps hnd]
  cases get? k fields with
  | none => rfl
  | some value => by_cases hp : p (k, value) = true <;> simp [Option.guard, Option.filter, hp]

/-! ## Removing keys -/

theorem erase_subset (key : String) (fields : List (String × α)) : erase key fields ⊆ fields := by
  induction fields with
  | nil => exact List.Subset.refl _
  | cons field rest ih =>
    obtain ⟨k', v⟩ := field
    rw [erase]
    split_ifs
    · cases hlast : rest.getLast? with
      | none => exact List.nil_subset _
      | some last =>
        refine List.cons_subset.2 ⟨List.mem_cons_of_mem _ (List.mem_of_getLast? hlast), ?_⟩
        exact List.Subset.trans rest.dropLast_subset (List.subset_cons_self _ _)
    · exact List.cons_subset_cons _ ih

theorem keys_erase_subset (key : String) (fields : List (String × α)) :
    keys (erase key fields) ⊆ keys fields :=
  List.map_subset _ (erase_subset key fields)

/-- **Removal keeps the other fields**, though not their order. -/
theorem erase_perm_filter (key : String) (hnd : (keys fields).Nodup) :
    (erase key fields).Perm (fields.filter fun field => field.1 ≠ key) := by
  induction fields with
  | nil => exact List.Perm.refl _
  | cons field rest ih =>
    obtain ⟨k', v⟩ := field
    obtain ⟨hfield, hrest⟩ := List.nodup_cons.1 hnd
    by_cases h : k' = key
    · subst h
      -- no other field has the key, so the rest stays as a whole
      have hall : rest.filter (fun field => field.1 ≠ k') = rest :=
        List.filter_eq_self.2 fun field hmem => by
          simpa using fun e : field.1 = k' => hfield (e ▸ mem_keys_of_mem hmem)
      rw [List.filter_cons_of_neg (by simp), hall, erase, if_pos rfl]
      cases hlast : rest.getLast? with
      | none => rw [List.getLast?_eq_none_iff.1 hlast]
      | some last =>
        show (last :: rest.dropLast).Perm rest
        conv_rhs => rw [← List.dropLast_append_getLast? last hlast]
        exact (List.perm_append_singleton last _).symm
    · rw [erase, if_neg h, List.filter_cons_of_pos (by simpa using h)]
      exact (ih hrest).cons _

theorem nodup_keys_filter (p : String × α → Bool) (hnd : (keys fields).Nodup) :
    (keys (fields.filter p)).Nodup :=
  hnd.sublist ((List.filter_sublist).map Prod.fst)

theorem nodup_keys_erase (key : String) (hnd : (keys fields).Nodup) :
    (keys (erase key fields)).Nodup :=
  ((erase_perm_filter key hnd).map Prod.fst).nodup_iff.2 (nodup_keys_filter _ hnd)

theorem get?_erase (key : String) (hnd : (keys fields).Nodup) (k : String) :
    get? k (erase key fields) = if k = key then none else get? k fields := by
  rw [get?_perm (erase_perm_filter key hnd) (nodup_keys_erase key hnd), get?_filter _ hnd]
  by_cases h : k = key
  · subst h; simp
  · cases get? k fields <;> simp [h]

end Fields

namespace Upgrade

variable {fields : List (String × Json)} {k : String}

theorem nodup_keys_eraseAll (keys : List String) (hnd : (Fields.keys fields).Nodup) :
    (Fields.keys (eraseAll keys fields)).Nodup := by
  induction keys generalizing fields with
  | nil => exact hnd
  | cons key keys ih => exact ih (Fields.nodup_keys_erase key hnd)

theorem get?_eraseAll (keys : List String) (hnd : (Fields.keys fields).Nodup) (k : String) :
    Fields.get? k (eraseAll keys fields) = if k ∈ keys then none else Fields.get? k fields := by
  induction keys generalizing fields with
  | nil => simp [eraseAll]
  | cons key keys ih =>
    show Fields.get? k (eraseAll keys (Fields.erase key fields)) = _
    rw [ih (Fields.nodup_keys_erase key hnd), Fields.get?_erase key hnd]
    by_cases h : k = key <;> simp [h]

theorem get?_select (keys : List String) (fields : List (String × Json)) (k : String) :
    Fields.get? k (select keys fields) = if k ∈ keys then Fields.get? k fields else none := by
  induction keys with
  | nil => rfl
  | cons key keys ih =>
    rw [select] at ih ⊢
    cases hv : Fields.get? key fields with
    | none =>
      rw [List.filterMap_cons_none (by simp [hv]), ih]
      by_cases h : k = key
      · subst h; simp [hv]
      · simp [h]
    | some value =>
      rw [List.filterMap_cons_some (by simp [hv]; rfl), Fields.get?_cons, ih]
      by_cases h : k = key
      · subst h; simp [hv]
      · simp [h, Ne.symm h]

end Upgrade

/-! ## Tables -/

namespace Fields

variable {α : Type} {fields : List (String × α)}

theorem insert_of_notMem {key : String} (value : α) (h : key ∉ keys fields) :
    insert key value fields = fields ++ [(key, value)] := by
  induction fields with
  | nil => rfl
  | cons field rest ih =>
    obtain ⟨k', v⟩ := field
    obtain ⟨hne, hrest⟩ := not_or.1 (mt List.mem_cons.2 h)
    rw [insert, if_neg (Ne.symm hne), ih hrest, List.cons_append]

/-- **Fields with different keys are a table as they are.** -/
theorem ofList_of_nodup (hnd : (keys fields).Nodup) : ofList fields = fields := by
  suffices h : ∀ acc : List (String × α), (keys (acc ++ fields)).Nodup →
      fields.foldl (fun acc field => insert field.1 field.2 acc) acc = acc ++ fields from
    h [] hnd
  clear hnd
  induction fields with
  | nil => exact fun acc _ => (List.append_nil acc).symm
  | cons field rest ih =>
    intro acc hnd
    have hnew : field.1 ∉ keys acc := by
      rw [keys_append, keys_cons, List.nodup_append] at hnd
      exact fun hmem => hnd.2.2 field.1 hmem field.1 List.mem_cons_self rfl
    rw [List.foldl_cons, insert_of_notMem field.2 hnew, ih]
    · simp
    · simpa using hnd

/-- **Of equal keys the last value stays.** -/
theorem get?_ofList (fields : List (String × α)) (k : String) :
    get? k (ofList fields) = get? k fields.reverse := by
  induction fields using List.reverseRecOn with
  | nil => rfl
  | append_singleton fields field ih =>
    rw [ofList, List.foldl_append, ← ofList, List.foldl_cons, List.foldl_nil, get?_insert, ih,
      List.reverse_append, List.reverse_singleton, List.singleton_append, get?_cons]
    by_cases h : k = field.1
    · rw [if_pos h, if_pos h.symm]
    · rw [if_neg h, if_neg (Ne.symm h)]

theorem ofList_subset (fields : List (String × α)) : ofList fields ⊆ fields := by
  rintro ⟨key, value⟩ hmem
  have hget := get?_of_mem (nodup_keys_ofList fields) hmem
  rw [get?_ofList] at hget
  exact List.mem_reverse.1 (mem_of_get? hget)

/-- **Of equal keys the first place stays.** -/
theorem keys_ofList (fields : List (String × α)) :
    keys (ofList fields) = (keys fields).eraseDups := by
  induction fields using List.reverseRecOn with
  | nil => rfl
  | append_singleton fields field ih =>
    rw [ofList, List.foldl_append, ← ofList, List.foldl_cons, List.foldl_nil, keys_insert, ih,
      keys_append, List.eraseDups_append]
    by_cases h : field.1 ∈ keys fields
    · simp [h, List.removeAll]
    · simp [h, List.removeAll, List.eraseDups_cons]

end Fields

/-! ## Objects -/

theorem Json.get?_obj (key : String) (fields : List (String × Json)) :
    (Json.obj fields).get? key = Fields.get? key fields := rfl

theorem Json.text?_eq_none {key : String} {fields : List (String × Json)}
    (h : key ∉ Fields.keys fields) : (Json.obj fields).text? key = none := by
  rw [text?, get?_obj, Fields.get?_eq_none_iff.2 h]
  rfl

theorem Json.eq_obj_of_fields? {value : Json} {fields : List (String × Json)}
    (h : value.fields? = some fields) : value = .obj fields := by
  cases value with
  | obj inner => rw [Option.some.inj h]
  | _ => cases h

/-! ## Tables -/

namespace Table

variable {α : Type} {fields : List (String × α)}

theorem entries_ofList (hnd : (Fields.keys fields).Nodup) : (ofList fields).entries = fields :=
  Fields.ofList_of_nodup hnd

theorem get?_ofList (hnd : (Fields.keys fields).Nodup) (key : String) :
    (ofList fields).get? key = Fields.get? key fields := by
  rw [get?, entries_ofList hnd]

end Table
end ApiDigest
