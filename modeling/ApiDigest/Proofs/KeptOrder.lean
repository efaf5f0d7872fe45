/-
  The order of an old document in its digest.

  Bringing a document over removes keys all the time, and what is removed leaves its
  place to the last field.  A digest lists paths, definitions and properties in their
  order, though, and nothing is removed from those, unless one of them has the name of
  the null flag.

  * `Upgrade.sourceOperations` and `Upgrade.sourceSchemas` list what a document of the
    older dialect declares, in its own order;
  * `Upgrade.visits_of_source` and `Upgrade.schemas_of_source` are the view's operations and
    schema table, entry by entry;
  * `Upgrade.order_of_source`: the digest lists the same.
-/
import ApiDigest.Proofs.NormalView
import ApiDigest.Proofs.ViewedNodes

namespace ApiDigest

/-- Where every value comes to something, no field is dropped. -/
theorem Fields.filterMapValues_eq_mapValues {α β : Type} {f : α → Option β} {g : α → β}
    {fields : List (String × α)} (h : ∀ field ∈ fields, f field.2 = some (g field.2)) :
    filterMapValues f fields = mapValues g fields := by
  induction fields with
  | nil => rfl
  | cons field rest ih =>
    obtain ⟨hfield, hrest⟩ := List.forall_mem_cons.1 h
    obtain ⟨key, value⟩ := field
    simp only [filterMapValues, mapValues] at ih ⊢
    rw [List.filterMap_cons, List.map_cons, ih hrest, hfield, Option.map_some]

namespace Upgrade

variable {root item op fields : List (String × Json)}

/-! ## What a document declares -/

/-- The operations of a document: the objects at the keys of methods in the objects at
    paths, each with its place and its tags. -/
def sourceOperations (root : List (String × Json)) : List ((String × Method) × List String) :=
  (objectAt "paths" root).flatMap fun field => Method.all.filterMap fun m =>
    ((field.2.get? m.key).bind Json.fields?).map fun op => ((field.1, m), texts "tags" op)

/-- The names of the definitions of a document, each with the names of its properties. -/
def sourceSchemas (root : List (String × Json)) : List (String × List String) :=
  (objectAt "definitions" root).map fun field =>
    (field.1, Fields.keys (field.2.fieldsAt "properties"))

/-- A document of the older dialect in which no path, no definition and no property of a
    definition has the name of the null flag. -/
structure PlainNames (root : List (String × Json)) : Prop where
  dialect : Dialect.ofJson (.obj root) = .swagger2
  distinct : (Json.obj root).DistinctKeys
  paths : "x-nullable" ∉ Fields.keys (objectAt "paths" root)
  definitions : "x-nullable" ∉ Fields.keys (objectAt "definitions" root)
  properties : ∀ field ∈ objectAt "definitions" root,
    "x-nullable" ∉ Fields.keys (field.2.fieldsAt "properties")

/-- Every definition is an object, and so is every property of a definition. -/
def SchemasAreObjects (root : List (String × Json)) : Prop :=
  ∀ field ∈ objectAt "definitions" root, field.2.fields?.isSome ∧
    ∀ property ∈ field.2.fieldsAt "properties", property.2.fields?.isSome

instance (root : List (String × Json)) : Decidable (SchemasAreObjects root) :=
  inferInstanceAs (Decidable (∀ field ∈ objectAt "definitions" root, _ ∧ _))

/-! ## Operations -/

/-- Tags are texts, so nothing in them is moved. -/
theorem tags_viewOperation (hnd : (Fields.keys op).Nodup) :
    (viewOperation root item op).tags = texts "tags" op := by
  rw [viewOperation_tags, Fields.readList, get?_normalOperation_other hnd (by decide) (by decide),
    map_moveAt (by decide), texts]
  cases Fields.get? "tags" op with
  | none => rfl
  | some value =>
    cases value with
    | arr items =>
      rw [Option.map_some, move_arr]
      simp [Json.readItems, Json.items?, List.filterMap_map]
    | _ => rfl

/-- The operations of a path item. -/
theorem visits_of_item (h : (Json.obj item).DistinctKeys) (path : String) :
    ((viewItem root item).visits path).map (fun visit => (visit.place, visit.operation.tags)) =
      Method.all.filterMap fun m => ((Fields.get? m.key item).bind Json.fields?).map fun op =>
        ((path, m), texts "tags" op) := by
  rw [visits_viewItem h.keys, List.map_filterMap]
  refine List.filterMap_congr fun m _ => ?_
  rw [Option.map_map]
  cases hop : (Fields.get? m.key item).bind Json.fields? with
  | none => rfl
  | some op =>
    have htags : (viewOperation root item op).tags = texts "tags" op :=
      tags_viewOperation (h.object hop).keys
    rw [Option.map_some, Option.map_some, ← htags]
    rfl

/-- **The operations of the view**, in the order of the source. -/
theorem visits_of_source (h : (Json.obj root).DistinctKeys) :
    (viewDocument root).visits.map (fun visit => (visit.place, visit.operation.tags)) =
      sourceOperations root := by
  have hpaths := distinctKeys_objectAt h "paths"
  rw [visits_viewDocument hpaths.keys, List.map_flatMap, sourceOperations]
  refine List.flatMap_congr fun field hfield => ?_
  obtain ⟨path, value⟩ := field
  cases value with
  | obj item =>
    have hvisits : ((viewItem root item).visits path).map _ = _ :=
      visits_of_item (hpaths.field hfield) path
    simpa only [Json.fields?, Json.get?, Option.map_some, Option.getD_some, Option.bind_some]
      using hvisits
  | _ => simp [Json.fields?, Json.get?]

/-! ## Schemas -/

/-- The entries of a moved object; what is no object has none. -/
theorem readEntries_moveAt {α : Type} (read : Json → Option α) {k : String} (hk : k ≠ "$ref")
    (key : String) (fields : List (String × Json)) :
    (((Fields.get? key fields).map (moveAt k)).map (Json.readEntries read)).getD [] =
      Json.readEntries read (move (.obj (objectAt key fields))) := by
  rw [map_moveAt hk, objectAt]
  cases Fields.get? key fields with
  | none => rfl
  | some value => cases value <;> rfl

/-- The node of a moved object. -/
def movedNode (value : Json) : Schema :=
  Schema.ofFields (moveObject (moveFields (value.fields?.getD [])))

theorem ofJson?_move {value : Json} (h : value.fields?.isSome) :
    Schema.ofJson? (move value) = some (movedNode value) := by
  obtain ⟨fields, hfields⟩ := Option.isSome_iff_exists.1 h
  obtain rfl := Json.eq_obj_of_fields? hfields
  rw [move_obj, Schema.ofJson?_obj]
  rfl

/-- **A table of nodes is moved entry by entry**, if no name in it is that of the null
    flag. -/
theorem readEntries_move (hx : "x-nullable" ∉ Fields.keys fields)
    (hobj : ∀ field ∈ fields, field.2.fields?.isSome) :
    Json.readEntries Schema.ofJson? (move (.obj fields)) = Fields.mapValues movedNode fields := by
  rw [move_obj, moveObject_of_objects hx hobj]
  show Fields.filterMapValues Schema.ofJson? (Fields.mapValues move fields) = _
  rw [Fields.filterMapValues, Fields.mapValues, List.filterMap_map]
  exact Fields.filterMapValues_eq_mapValues (f := fun value => Schema.ofJson? (move value))
    fun field hfield => ofJson?_move (hobj field hfield)

/-- The properties of a moved definition have their names and their order. -/
theorem keys_properties_movedNode {value : Json} (hnd : value.DistinctKeys)
    (hx : "x-nullable" ∉ Fields.keys (value.fieldsAt "properties"))
    (hvalue : value.fields?.isSome)
    (hobj : ∀ property ∈ value.fieldsAt "properties", property.2.fields?.isSome) :
    Fields.keys (movedNode value).properties = Fields.keys (value.fieldsAt "properties") := by
  obtain ⟨fields, hfields⟩ := Option.isSome_iff_exists.1 hvalue
  obtain rfl := Json.eq_obj_of_fields? hfields
  have hproperties : (movedNode (.obj fields)).properties =
      Json.readEntries Schema.ofJson? (move (.obj (objectAt "properties" fields))) := by
    rw [movedNode, Schema.properties_ofFields]
    show ((Fields.get? "properties" (moveObject (moveFields fields))).map _).getD [] = _
    rw [get?_moveObject hnd.keys (by decide) (by decide), readEntries_moveAt _ (by decide)]
  have hread := readEntries_move hx hobj
  change Json.readEntries Schema.ofJson? (move (.obj (objectAt "properties" fields))) = _ at hread
  rw [hproperties, hread, Fields.keys_mapValues]

/-- **The schema table of the view**, in the order of the source. -/
theorem schemas_of_source (h : PlainNames root) (hobj : SchemasAreObjects root) :
    (viewDocument root).tableRecords.map (fun record =>
      (record.name, record.properties.map PropertyRecord.name)) = sourceSchemas root := by
  have hdefinitions := distinctKeys_objectAt h.distinct "definitions"
  have hentries : (viewDocument root).schemas.entries =
      Fields.mapValues movedNode (objectAt "definitions" root) := by
    have hread : (((Fields.get? "schemas" (normalComponents root)).map
        (Json.readEntries Schema.ofJson?)).getD []) =
        Fields.mapValues movedNode (objectAt "definitions" root) := by
      rw [get?_normalComponents, componentsAt, if_pos rfl, readEntries_moveAt _ (by decide),
        readEntries_move h.definitions fun field hfield => (hobj field hfield).1]
    rw [viewDocument_schemas, Fields.readTable, hread]
    exact Table.entries_ofList (by rw [Fields.keys_mapValues]; exact hdefinitions.keys)
  rw [Document.tableRecords, hentries, List.map_map, Fields.mapValues, List.map_map, sourceSchemas]
  refine List.map_congr_left fun field hfield => ?_
  obtain ⟨hvalue, hproperties⟩ := hobj field hfield
  have hkeys := keys_properties_movedNode (hdefinitions.field hfield) (h.properties field hfield)
    hvalue hproperties
  rw [← hkeys]
  refine congrArg (Prod.mk field.1) ?_
  show ((movedNode field.2).properties.map _).map _ = _
  rw [List.map_map]
  rfl

/-! ## The digest -/

/-- **A digest lists what an old document declares, in its order.**  Its operations stand
    where the document has them, method by method, with their tags; and if all definitions
    and their properties are objects, its schema table has the definitions and their
    properties as they are declared. -/
theorem order_of_source (h : PlainNames root) (origin : String) :
    ∃ document, (Json.obj root).document? origin = some document ∧
      document.digest.operations.map (fun op => (op.place, op.tags)) = sourceOperations root ∧
      (SchemasAreObjects root → ∃ table,
        document.digest.schemas = table ++ document.madeSchemas ∧
        table.map (fun record => (record.name, record.properties.map PropertyRecord.name)) =
          sourceSchemas root) := by
  refine ⟨_, document?_eq h.dialect h.paths origin, ?_, fun hobj => ⟨_, rfl, ?_⟩⟩
  · rw [← visits_of_source h.distinct]
    exact Document.map_operations _ fun _ _ _ _ => rfl
  · exact schemas_of_source h hobj

/-- Keys that are removed stand before others everywhere: in path items, in operations, in
    definitions and in properties. -/
def ledger : List (String × Json) := [
  ("swagger", .str "2.0"), ("produces", .arr []),
  ("paths", .obj [
    ("/entries", .obj [
      ("parameters", .arr []),
      ("patch", .obj [("tags", .arr [.str "books"])]),
      ("put", .obj [("tags", .arr [.str "books", .str "books"])]),
      ("post", .obj [("x-nullable", .null), ("tags", .arr [.str "audit"])]),
      ("get", .obj [("produces", .arr []), ("x-nullable", .null),
        ("tags", .arr [.str "books", .num (.int 1), .str "audit"])])]),
    ("/status", .null),
    ("/accounts", .obj [("x-nullable", .null), ("post", .arr []), ("delete", .obj [])])]),
  ("definitions", .obj [
    ("Entry", .obj [("x-nullable", .bool true), ("type", .str "object"),
      ("properties", .obj [
        ("note", .obj [("x-nullable", .bool true), ("type", .str "string")]),
        ("$ref", .obj [("type", .str "string")]),
        ("amount", .obj [])])]),
    ("Account", .obj [("properties", .null)])])]

theorem order_of_source_ledger :
    PlainNames ledger ∧ SchemasAreObjects ledger ∧
      ∃ document, (Json.obj ledger).document? "ledger.json" = some document ∧
        document.digest.operations.map (fun op => (op.place, op.tags)) =
          [(("/entries", .get), ["books", "audit"]), (("/entries", .post), ["audit"]),
            (("/entries", .put), ["books", "books"]), (("/entries", .patch), ["books"]),
            (("/accounts", .delete), [])] ∧
        ∃ table, document.digest.schemas = table ++ document.madeSchemas ∧
          table.map (fun record => (record.name, record.properties.map PropertyRecord.name)) =
            [("Entry", ["note", "$ref", "amount"]), ("Account", [])] := by
  have hnames : PlainNames ledger := ⟨by decide +kernel, by decide +kernel, by decide +kernel,
    by decide +kernel, by decide +kernel⟩
  have hobjects : SchemasAreObjects ledger := by decide +kernel
  obtain ⟨document, hdocument, hoperations, hschemas⟩ := order_of_source hnames "ledger.json"
  obtain ⟨table, hsplit, htable⟩ := hschemas hobjects
  exact ⟨hnames, hobjects, document, hdocument, hoperations.trans (by decide +kernel), table,
    hsplit, htable.trans (by decide +kernel)⟩

end Upgrade
end ApiDigest
