/-
  JSON values as YAML trees.

  A YAML tree says more than a JSON value: it may have tags anywhere, and keys of any kind.
  The value comes back from the tree that spells it, and tags around it or around values
  inside do not show.  Keys that have the same text are one key.

  * `Json.IsProper` holds of values with distinct keys and numbers of 64 bits;
  * `Yaml.Value.ofJson` is the tree that spells a value, with strings for keys, and
    `Yaml.Value.untagged` is a tree without its tags;
  * `Yaml.Value.toJson_ofJson`: the tree of a value becomes the value;
  * `Yaml.Value.toJson_untagged`: tags do not matter;
  * `Yaml.Value.keys_mapping` and `Yaml.Value.get?_mapping`: of equal keys the first place and
    the last value stay;
  * `Yaml.Value.toJson_of_trees` joins all three.
-/
import ApiDigest.Proofs.Lookup
import ApiDigest.Yaml.ToJson

namespace ApiDigest

/-- A value that can be held: no object has a key twice, integers have 64 bits, with a sign
    or without, and doubles are finite. -/
inductive Json.IsProper : Json → Prop
  | null : IsProper .null
  | bool (b : Bool) : IsProper (.bool b)
  | int {n : Int} : -0x8000000000000000 ≤ n → n < 0x10000000000000000 → IsProper (.num (.int n))
  | double {x : Binary64} : x.isFinite = true → IsProper (.num (.double x))
  | str (text : String) : IsProper (.str text)
  | arr {items : List Json} : (∀ item ∈ items, IsProper item) → IsProper (.arr items)
  | obj {fields : List (String × Json)} : (Fields.keys fields).Nodup →
      (∀ field ∈ fields, IsProper field.2) → IsProper (.obj fields)

theorem Fields.get?_map {α β : Type} (key : String) (name : α → String) (f : α → β) (l : List α) :
    get? key (l.map fun a => (name a, f a)) = (l.find? fun a => name a = key).map f := by
  induction l with
  | nil => rfl
  | cons a rest ih =>
    rw [List.map_cons, get?_cons, ih, List.find?_cons]
    by_cases h : name a = key <;> simp [h]

namespace Yaml.Value

/-! ## Trees -/

mutual

/-- The tree that spells a JSON value; its keys are strings. -/
def ofJson : Json → Value
  | .null => .null
  | .bool b => .bool b
  | .num (.int n) => .int n
  | .num (.double x) => .double x
  | .str text => .string text
  | .arr items => .sequence (ofItems items)
  | .obj fields => .mapping (ofFields fields)

/-- The trees of items. -/
def ofItems : List Json → List Value
  | [] => []
  | item :: rest => ofJson item :: ofItems rest

/-- The trees of fields. -/
def ofFields : List (String × Json) → List (Value × Value)
  | [] => []
  | (key, value) :: rest => (.string key, ofJson value) :: ofFields rest

end

mutual

/-- A tree without tags around it and around the values inside; keys stay as they are. -/
def untagged : Value → Value
  | .sequence items => .sequence (untaggedItems items)
  | .mapping entries => .mapping (untaggedEntries entries)
  | .tagged _ value => untagged value
  | other => other

/-- Items without tags. -/
def untaggedItems : List Value → List Value
  | [] => []
  | item :: rest => untagged item :: untaggedItems rest

/-- Entries without tags in their values. -/
def untaggedEntries : List (Value × Value) → List (Value × Value)
  | [] => []
  | (key, value) :: rest => (key, untagged value) :: untaggedEntries rest

end

theorem ofItems_eq_map (items : List Json) : ofItems items = items.map ofJson := by
  induction items with
  | nil => rfl
  | cons item rest ih => rw [ofItems, ih, List.map_cons]

theorem ofFields_eq_map (fields : List (String × Json)) :
    ofFields fields = fields.map fun field => (.string field.1, ofJson field.2) := by
  induction fields with
  | nil => rfl
  | cons field rest ih => rw [ofFields, ih, List.map_cons]

theorem itemsToJson_eq_map (items : List Value) : itemsToJson items = items.map toJson := by
  induction items with
  | nil => rfl
  | cons item rest ih => rw [itemsToJson, ih, List.map_cons]

theorem entriesToJson_eq_map (entries : List (Value × Value)) :
    entriesToJson entries = entries.map fun entry => (entry.1.keyText, entry.2.toJson) := by
  induction entries with
  | nil => rfl
  | cons entry rest ih => rw [entriesToJson, ih, List.map_cons]

/-! ## Numbers -/

/-- **An integer of 64 bits stays one**: what is too large for a sign is tried without. -/
theorem numberToJson_int {n : Int} (hlow : -0x8000000000000000 ≤ n)
    (hhigh : n < 0x10000000000000000) : numberToJson (.int n) = .num (.int n) := by
  rw [numberToJson, signed?]
  by_cases hsigned : n < 0x8000000000000000
  · rw [if_pos ⟨hlow, hsigned⟩]
  · rw [if_neg fun h => hsigned h.2, unsigned?, if_pos ⟨by omega, hhigh⟩]

theorem numberToJson_double {x : Binary64} (h : x.isFinite = true) :
    numberToJson (.double x) = .num (.double x) := by
  show Json.ofOption (fun x => .num (.double x)) ((some x).filter Binary64.isFinite) = _
  rw [Option.filter_some, if_pos h]
  rfl

/-! ## Values come back -/

/-- **The tree of a value becomes the value again**, at any depth. -/
theorem toJson_ofJson {v : Json} (h : v.IsProper) : (ofJson v).toJson = v := by
  induction h with
  | null | bool | str => rfl
  | int hlow hhigh => exact numberToJson_int hlow hhigh
  | double hfinite => exact numberToJson_double hfinite
  | arr _ ih =>
    rw [ofJson, toJson, ofItems_eq_map, itemsToJson_eq_map, List.map_map]
    exact congrArg Json.arr ((List.map_congr_left ih).trans (List.map_id _))
  | @obj fields hkeys _ ih =>
    have hfields : entriesToJson (ofFields fields) = fields := by
      rw [ofFields_eq_map, entriesToJson_eq_map, List.map_map]
      refine (List.map_congr_left fun field hfield => ?_).trans (List.map_id _)
      exact congrArg (Prod.mk field.1) (ih field hfield)
    rw [ofJson, toJson, hfields, Fields.ofList_of_nodup hkeys]

/-! ## Tags -/

mutual

/-- **Tags do not show in the JSON of a tree.** -/
theorem toJson_untagged : ∀ value : Value, value.untagged.toJson = value.toJson
  | .null | .bool _ | .int _ | .double _ | .string _ => rfl
  | .sequence items => by rw [untagged, toJson, toJson, itemsToJson_untagged items]
  | .mapping entries => by rw [untagged, toJson, toJson, entriesToJson_untagged entries]
  | .tagged _ value => by rw [untagged, toJson, toJson_untagged value]

theorem itemsToJson_untagged : ∀ items : List Value,
    itemsToJson (untaggedItems items) = itemsToJson items
  | [] => rfl
  | item :: rest => by
    rw [untaggedItems, itemsToJson, itemsToJson, toJson_untagged item, itemsToJson_untagged rest]

theorem entriesToJson_untagged : ∀ entries : List (Value × Value),
    entriesToJson (untaggedEntries entries) = entriesToJson entries
  | [] => rfl
  | (key, value) :: rest => by
    rw [untaggedEntries, entriesToJson, entriesToJson, toJson_untagged value,
      entriesToJson_untagged rest]

end

/-! ## Keys -/

/-- **The keys of a mapping** are the texts of its keys, in the order of their first
    occurrences. -/
theorem keys_mapping (entries : List (Value × Value)) :
    Fields.keys (Fields.ofList (entriesToJson entries)) =
      (entries.map fun entry => entry.1.keyText).eraseDups := by
  rw [Fields.keys_ofList, entriesToJson_eq_map, Fields.keys, List.map_map]
  rfl

/-- **A key of a mapping** has the value of the last entry whose key has that text. -/
theorem get?_mapping (entries : List (Value × Value)) (key : String) :
    Fields.get? key (Fields.ofList (entriesToJson entries)) =
      (entries.reverse.find? fun entry => entry.1.keyText = key).map fun entry =>
        entry.2.toJson := by
  rw [Fields.get?_ofList, entriesToJson_eq_map, ← List.map_reverse]
  exact Fields.get?_map key (keyText ∘ Prod.fst) (toJson ∘ Prod.snd) _

/-! ## Trees and values -/

/-- **YAML trees keep the JSON that they stand for.**  A value comes back from the tree that
    spells it, also with tags around it and around any of the values inside; and a mapping
    becomes an object whose keys are the texts of its keys, in the order of their first
    occurrences and with the values of their last ones. -/
theorem toJson_of_trees :
    (∀ v : Json, v.IsProper → (ofJson v).toJson = v ∧
      ∀ tree : Value, tree.untagged = ofJson v → tree.toJson = v) ∧
    ∀ entries : List (Value × Value), ∃ fields, (Value.mapping entries).toJson = .obj fields ∧
      Fields.keys fields = (entries.map fun entry => entry.1.keyText).eraseDups ∧
      ∀ key, Fields.get? key fields =
        (entries.reverse.find? fun entry => entry.1.keyText = key).map fun entry =>
          entry.2.toJson := by
  constructor
  · intro v hv
    refine ⟨toJson_ofJson hv, fun tree htree => ?_⟩
    rw [← toJson_untagged, htree, toJson_ofJson hv]
  · intro entries
    exact ⟨_, by rw [toJson], keys_mapping entries, get?_mapping entries⟩

/-- A value with integers at both ends of their range. -/
def release : Json :=
  .obj [("id", .num (.int 18446744073709551615)), ("low", .num (.int (-9223372036854775808))),
    ("parts", .arr [.num (.double ⟨0x3FF8000000000000⟩), .obj [("b", .null), ("a", .bool true)]])]

/-- Its tree with tags at several depths. -/
def taggedRelease : Value :=
  .tagged "release" (.mapping [
    (.string "id", .tagged "id" (.int 18446744073709551615)),
    (.string "low", .int (-9223372036854775808)),
    (.string "parts", .sequence [.double ⟨0x3FF8000000000000⟩,
      .tagged "outer" (.tagged "inner" (.mapping [
        (.string "b", .tagged "none" .null), (.string "a", .bool true)]))])])

/-- Responses, of which two have the same status: a number and a string. -/
def statuses : List (Value × Value) :=
  [(.int 200, .string "first"), (.null, .string "none"), (.string "200", .string "last")]

theorem isProper_release : release.IsProper := by
  have hinner : (Json.obj [("b", .null), ("a", .bool true)]).IsProper := by
    refine .obj (by decide) (List.forall_mem_cons.2 ⟨.null, List.forall_mem_singleton.2 (.bool _)⟩)
  refine .obj (by decide) (List.forall_mem_cons.2 ⟨.int (by decide) (by decide),
    List.forall_mem_cons.2 ⟨.int (by decide) (by decide), List.forall_mem_singleton.2 (.arr ?_)⟩⟩)
  exact List.forall_mem_cons.2 ⟨.double (by decide), List.forall_mem_singleton.2 hinner⟩

theorem toJson_of_trees_release :
    release.IsProper ∧ taggedRelease.untagged = ofJson release ∧ taggedRelease.toJson = release ∧
      ∃ fields, (Value.mapping statuses).toJson = .obj fields ∧
        Fields.keys fields = ["200", "null"] ∧
        Fields.get? "200" fields = some (.str "last") := by
  obtain ⟨hvalues, hmappings⟩ := toJson_of_trees
  obtain ⟨fields, hfields, hkeys, hlast⟩ := hmappings statuses
  refine ⟨isProper_release, rfl, (hvalues release isProper_release).2 taggedRelease rfl,
    fields, hfields, hkeys.trans (by decide), (hlast "200").trans ?_⟩
  rfl

end Yaml.Value
end ApiDigest
