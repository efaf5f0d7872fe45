/-
  Tables with distinct keys in a fixed order.

  A `Table` is a list of fields whose keys are pairwise distinct.  `Table.ofList`
  makes one of any fields: of equal keys the first place and the last value stay.
-/
import ApiDigest.Json

namespace ApiDigest

/-! ## Keys of fields -/

namespace Fields

variable {α : Type}

theorem keys_insert (key : String) (value : α) (fields : List (String × α)) :
    keys (insert key value fields) =
      if key ∈ keys fields then keys fields else keys fields ++ [key] := by
  induction fields with
  | nil => simp [insert, keys]
  | cons field rest ih =>
    obtain ⟨k, v⟩ := field
    by_cases h : k = key
    · simp [insert, keys, h]
    · have h' : ¬key = k := fun e => h e.symm
      simp only [keys] at ih
      simp only [insert, h, if_false, keys, List.map_cons, ih, List.mem_cons, h', false_or]
      by_cases hk : key ∈ rest.map Prod.fst <;> simp [hk]

theorem mem_of_get? {key : String} {value : α} {fields : List (String × α)}
    (h : get? key fields = some value) : (key, value) ∈ fields := by
  induction fields with
  | nil => simp [get?] at h
  | cons field rest ih =>
    obtain ⟨k, v⟩ := field
    rw [get?] at h
    split at h
    · rename_i hk
      obtain rfl := Option.some.inj h
      exact hk ▸ List.mem_cons_self
    · exact List.mem_cons_of_mem _ (ih h)

theorem nodup_keys_insert (key : String) (value : α) {fields : List (String × α)}
    (h : (keys fields).Nodup) : (keys (insert key value fields)).Nodup := by
  rw [keys_insert]
  split
  · exact h
  · rename_i hk
    exact List.nodup_append.2 ⟨h, by simp, by
      intro a ha b hb
      simp only [List.mem_singleton] at hb
      exact fun e => hk (hb ▸ e ▸ ha)⟩

theorem nodup_keys_ofList (fields : List (String × α)) : (keys (ofList fields)).Nodup := by
  suffices h : ∀ acc : List (String × α), (keys acc).Nodup →
      (keys (fields.foldl (fun acc field => insert field.1 field.2 acc) acc)).Nodup from
    h [] (by simp [keys])
  induction fields with
  | nil => exact fun _ h => h
  | cons field rest ih => exact fun acc h => ih _ (nodup_keys_insert _ _ h)

end Fields

/-! ## Tables -/

/-- Fields with distinct keys. -/
structure Table (α : Type) where
  entries : List (String × α)
  nodup_keys : (Fields.keys entries).Nodup

namespace Table

variable {α : Type}

/-- The table without entries. -/
def empty : Table α := ⟨[], by simp [Fields.keys]⟩

instance : Inhabited (Table α) := ⟨empty⟩

/-- The table of some fields: of equal keys the first place and the last value stay. -/
def ofList (fields : List (String × α)) : Table α :=
  ⟨Fields.ofList fields, Fields.nodup_keys_ofList fields⟩

/-- The entry of a key. -/
def get? (table : Table α) (key : String) : Option α := Fields.get? key table.entries

/-- The keys in order. -/
def keys (table : Table α) : List String := Fields.keys table.entries

end Table
end ApiDigest
