/-
  Schema nodes as they are viewed.

  A node is read together with its parts, so that each part is gone through once.
  Here its parts are the readings of the values at its keys.

  * `Schema.ofJson?_obj`: an object is always a node, `Schema.ofFields`;
  * `Schema.ofType` is the node that only declares a type, and
    `Schema.valueType_ofType` says when the type of a node is that of such a node.
-/
import ApiDigest.Digest.ValueType
import ApiDigest.Document.Reading
import ApiDigest.Proofs.Lookup

attribute [ext] ApiDigest.Schema

namespace ApiDigest.Schema

variable {fields : List (String × Json)}

/-! ## Readings -/

theorem readFields_eq_mapValues : ∀ fields : List (String × Json),
    readFields fields = Fields.mapValues readJson fields
  | [] => by rw [readFields]; rfl
  | (key, value) :: rest => by rw [readFields, readFields_eq_mapValues rest]; rfl

theorem readElements_eq_map : ∀ items : List Json, readElements items = items.map readJson
  | [] => by rw [readElements]; rfl
  | value :: rest => by rw [readElements, readElements_eq_map rest, List.map_cons]

/-- The node of an object. -/
def ofFields (fields : List (String × Json)) : Schema := assemble fields (readFields fields)

theorem ofJson?_obj (fields : List (String × Json)) :
    ofJson? (.obj fields) = some (ofFields fields) := by
  rw [ofJson?, readJson]; rfl

/-- An array is read like the object of its items, if it is not too long. -/
theorem ofJson?_eq (value : Json) : ofJson? value = (value.record? fieldNames).map ofFields := by
  cases value with
  | obj fields => exact ofJson?_obj fields
  | arr items =>
    rw [ofJson?, readJson, readElements_eq_map, Json.record?]
    show (if _ then _ else _) = Option.map _ (if _ then _ else _)
    split_ifs
    · rw [Option.map_some, ofFields, readFields_eq_mapValues, List.zip_map_right]
      rfl
    · rfl
  | _ => simp only [ofJson?, readJson]; rfl

/-- The properties of a node are the entries of the table there that can be read. -/
theorem properties_ofFields (fields : List (String × Json)) :
    (ofFields fields).properties =
      ((Fields.get? "properties" fields).map (Json.readEntries ofJson?)).getD [] := by
  have hentries : ∀ value : Json, (readJson value).entries = Json.readEntries ofJson? value := by
    intro value
    cases value with
    | obj fields =>
      rw [readJson, readFields_eq_mapValues, Json.readEntries, Fields.filterMapValues,
        Fields.mapValues, List.filterMap_map]
      rfl
    | _ => simp only [readJson, Json.readEntries]
  show ((Fields.get? "properties" (readFields fields)).map Reading.entries).getD [] = _
  rw [readFields_eq_mapValues, Fields.get?_mapValues, Option.map_map]
  exact congrArg (fun f => ((Fields.get? "properties" fields).map f).getD []) (funext hentries)

theorem items_ofFields (fields : List (String × Json)) :
    (ofFields fields).items = (Fields.get? "items" fields).bind ofJson? := by
  show (Fields.get? "items" (readFields fields)).bind Reading.node = _
  rw [readFields_eq_mapValues, Fields.get?_mapValues, Option.bind_map]
  rfl

/-- The variants of a node are the items of the list there that can be read. -/
theorem variants_ofFields_eq (fields : List (String × Json)) :
    (ofFields fields).variants = Fields.readList "anyOf" ofJson? fields := by
  have helements : ∀ value : Json, (readJson value).elements = Json.readItems ofJson? value := by
    intro value
    cases value with
    | arr items =>
      rw [readJson, readElements_eq_map, Json.readItems, List.filterMap_map]
      rfl
    | _ => simp only [readJson, Json.readItems]
  show ((Fields.get? "anyOf" (readFields fields)).map Reading.elements).getD [] = _
  rw [readFields_eq_mapValues, Fields.get?_mapValues, Option.map_map]
  exact congrArg (fun f => ((Fields.get? "anyOf" fields).map f).getD []) (funext helements)

theorem variants_ofFields (h : Fields.get? "anyOf" fields = none) :
    (ofFields fields).variants = [] := by
  rw [variants_ofFields_eq, Fields.readList, h]
  rfl

/-! ## Nodes that only declare a type -/

/-- The node that declares a type and nothing else. -/
def ofType (declared : Option DeclaredType) : Schema :=
  ⟨declared, none, none, [], [], none, none, [], none, none⟩

/-- The type of a node without properties and variants is the one it declares. -/
theorem valueType_ofType {schema : Schema} (hproperties : schema.properties = [])
    (hvariants : schema.variants = []) :
    schema.valueType = (ofType schema.declared).valueType := by
  obtain ⟨declared, format, pointer, properties, required, items, literals, variants, negated,
    nullable⟩ := schema
  simp only at hproperties hvariants
  subst hproperties hvariants
  cases declared with
  | none => rfl
  | some declared => cases declared <;> rfl

end ApiDigest.Schema
