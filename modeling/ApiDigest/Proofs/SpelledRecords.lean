/-
  Where a document is spelled.

  Every record of a document is read from a value that stands where a record of its kind is
  expected.  The entries of tables are read one after another, so a digest lists operations,
  schemas and properties in the order in which they stand in the document, while what stands
  beside them shows nowhere.

  * `Role.StandsIn` holds of the values that stand in a document where something is expected,
    and `RecordKind.Spelled` of records that are read from one of them;
  * `Document.spelled_schemas`: every schema of a document is spelled in it;
  * `Json.propertyNames` are the names of the properties of a node, and `Document.tableEntries`
    the entries of the schema table, in their order;
  * `Document.followsEntries_digest`: operations, schemas and properties keep their order;
  * `Document.digest_by_keys` joins this with what is not read.
-/
import ApiDigest.Proofs.DeclaredOperations
import ApiDigest.Proofs.Origins
import ApiDigest.Proofs.References
import ApiDigest.Proofs.UnreadKeys

namespace ApiDigest

variable {root fields : List (String × Json)} {kind part : RecordKind} {v : Json}

/-! ## Where values stand -/

/-- The value stands in a document where it is expected in the given role. -/
inductive Role.StandsIn (root : List (String × Json)) : Role → Json → Prop
  | root : StandsIn root (.record .document) (.obj root)
  | field {kind : RecordKind} {role : Role} {v w : Json} {fields : List (String × Json)}
      {key : String} :
      StandsIn root (.record kind) v → v.record? kind.keys = some fields →
      Fields.get? key kind.fields = some role → Fields.get? key fields = some w →
      StandsIn root role w
  | entry {kind : RecordKind} {entries : List (String × Json)} {name : String} {w : Json} :
      StandsIn root (.table kind) (.obj entries) → (name, w) ∈ entries →
      StandsIn root (.record kind) w
  | item {kind : RecordKind} {items : List Json} {w : Json} :
      StandsIn root (.list kind) (.arr items) → w ∈ items → StandsIn root (.record kind) w

open Role (StandsIn)

namespace RecordKind

/-- The record is read from a value that stands where one of its kind is expected. -/
def Spelled (root : List (String × Json)) (kind : RecordKind) (x : kind.View) : Prop :=
  ∃ v, StandsIn root (.record kind) v ∧ kind.read v = some x

variable (key : String) {name : String} {x : part.View}

theorem spelled_of_read (hv : StandsIn root (.record kind) v)
    (hfields : v.record? kind.keys = some fields)
    (hkey : Fields.get? key kind.fields = some (.record part))
    (hx : Fields.read key part.read fields = some x) : part.Spelled root x := by
  obtain ⟨w, hw, hread⟩ := Option.bind_eq_some_iff.1 hx
  exact ⟨w, .field hv hfields hkey hw, hread⟩

theorem spelled_of_readTable (hv : StandsIn root (.record kind) v)
    (hfields : v.record? kind.keys = some fields)
    (hkey : Fields.get? key kind.fields = some (.table part))
    (hx : (name, x) ∈ (Fields.readTable key part.read fields).entries) : part.Spelled root x := by
  replace hx := Fields.ofList_subset _ hx
  cases hw : Fields.get? key fields with
  | none =>
    rw [hw] at hx
    exact absurd hx List.not_mem_nil
  | some w =>
    rw [hw] at hx
    cases w with
    | obj entries =>
      obtain ⟨⟨name, w⟩, hmem, hread⟩ := List.mem_filterMap.1 hx
      obtain ⟨y, hy, hpair⟩ := Option.map_eq_some_iff.1 hread
      obtain ⟨rfl, rfl⟩ := Prod.mk.inj hpair
      exact ⟨w, .entry (.field hv hfields hkey hw) hmem, hy⟩
    | _ => exact absurd hx List.not_mem_nil

theorem spelled_of_readList (hv : StandsIn root (.record kind) v)
    (hfields : v.record? kind.keys = some fields)
    (hkey : Fields.get? key kind.fields = some (.list part))
    (hx : x ∈ Fields.readList key part.read fields) : part.Spelled root x := by
  rw [Fields.readList] at hx
  cases hw : Fields.get? key fields with
  | none =>
    rw [hw] at hx
    exact absurd hx List.not_mem_nil
  | some w =>
    rw [hw] at hx
    cases w with
    | arr items =>
      obtain ⟨w, hmem, hread⟩ := List.mem_filterMap.1 hx
      exact ⟨w, .item (.field hv hfields hkey hw) hmem, hread⟩
    | _ => exact absurd hx List.not_mem_nil

end RecordKind

open RecordKind (Spelled)

/-! ## Records inside records -/

section
variable {schema : Schema}

theorem MediaType.spelled_schemas {content : Table MediaType}
    (h : ∀ entry ∈ content.entries, Spelled root .mediaType entry.2)
    (hschema : schema ∈ MediaType.schemas content) : Spelled root .schema schema := by
  obtain ⟨entry, hentry, hschema⟩ := List.mem_filterMap.1 hschema
  obtain ⟨v, hv, hread⟩ := h entry hentry
  obtain ⟨fields, hfields, hmedia⟩ := Option.map_eq_some_iff.1 hread
  rw [← hmedia] at hschema
  exact RecordKind.spelled_of_read "schema" hv hfields rfl hschema

theorem Body.spelled_schemas {body : Body} (h : Spelled root .body body)
    (hschema : schema ∈ MediaType.schemas body.content) : Spelled root .schema schema := by
  obtain ⟨v, hv, hread⟩ := h
  obtain ⟨fields, hfields, rfl⟩ := Option.map_eq_some_iff.1 hread
  exact MediaType.spelled_schemas
    (fun entry hentry => RecordKind.spelled_of_readTable "content" hv hfields rfl hentry) hschema

theorem Response.spelled_schemas {response : Response} (h : Spelled root .response response)
    (hschema : schema ∈ MediaType.schemas response.content) : Spelled root .schema schema := by
  obtain ⟨v, hv, hread⟩ := h
  obtain ⟨fields, hfields, rfl⟩ := Option.map_eq_some_iff.1 hread
  exact MediaType.spelled_schemas
    (fun entry hentry => RecordKind.spelled_of_readTable "content" hv hfields rfl hentry) hschema

theorem Parameter.spelled_schemas {parameters : List Parameter}
    (h : ∀ parameter ∈ parameters, Spelled root .parameter parameter)
    (hschema : schema ∈ parameters.filterMap Parameter.schema) : Spelled root .schema schema := by
  obtain ⟨parameter, hparameter, hschema⟩ := List.mem_filterMap.1 hschema
  obtain ⟨v, hv, hread⟩ := h parameter hparameter
  obtain ⟨fields, hfields, rfl⟩ := Option.map_eq_some_iff.1 hread
  exact RecordKind.spelled_of_read "schema" hv hfields rfl hschema

theorem Operation.spelled_schemas {op : Operation} (h : Spelled root .operation op)
    (hschema : schema ∈ op.schemas) : Spelled root .schema schema := by
  obtain ⟨v, hv, hread⟩ := h
  obtain ⟨fields, hfields, rfl⟩ := Option.map_eq_some_iff.1 hread
  rw [Operation.schemas, List.mem_append, List.mem_append] at hschema
  rcases hschema with (hschema | hschema) | hschema
  · exact Parameter.spelled_schemas
      (fun _ hmem => RecordKind.spelled_of_readList "parameters" hv hfields rfl hmem) hschema
  · obtain ⟨body, hbody, hschema⟩ := List.mem_flatMap.1 hschema
    exact Body.spelled_schemas
      (RecordKind.spelled_of_read "requestBody" hv hfields rfl (Option.mem_toList.1 hbody)) hschema
  · obtain ⟨entry, hentry, hschema⟩ := List.mem_flatMap.1 hschema
    exact Response.spelled_schemas
      (RecordKind.spelled_of_readTable "responses" hv hfields rfl hentry) hschema

theorem PathItem.spelled_schemas {item : PathItem} (h : Spelled root .pathItem item)
    (hschema : schema ∈ item.schemas) : Spelled root .schema schema := by
  obtain ⟨v, hv, hread⟩ := h
  obtain ⟨fields, hfields, rfl⟩ := Option.map_eq_some_iff.1 hread
  rw [PathItem.schemas, List.mem_append] at hschema
  rcases hschema with hschema | hschema
  · exact Parameter.spelled_schemas
      (fun _ hmem => RecordKind.spelled_of_readList "parameters" hv hfields rfl hmem) hschema
  · obtain ⟨⟨m, op⟩, hop, hschema⟩ := List.mem_flatMap.1 hschema
    obtain ⟨m', -, hop⟩ := List.mem_filterMap.1 hop
    obtain ⟨op', hread, hpair⟩ := Option.map_eq_some_iff.1 hop
    obtain ⟨rfl, rfl⟩ := Prod.mk.inj hpair
    exact Operation.spelled_schemas
      (RecordKind.spelled_of_read m'.key hv hfields (by cases m' <;> rfl) hread) hschema

/-- **Every schema of a document is spelled in it.** -/
theorem Document.spelled_schemas (hschema : schema ∈ (Document.ofFields root).allSchemas) :
    Spelled root .schema schema := by
  rw [Document.allSchemas, List.mem_append] at hschema
  rcases hschema with hschema | hschema
  · obtain ⟨entry, hentry, hschema⟩ := List.mem_flatMap.1 hschema
    exact PathItem.spelled_schemas
      (RecordKind.spelled_of_readTable "paths" .root rfl rfl hentry) hschema
  · obtain ⟨entry, hentry, rfl⟩ := List.mem_map.1 hschema
    rw [RecordKind.schemas_ofFields] at hentry
    cases htable : Fields.read "components" RecordKind.components.read root with
    | none =>
      rw [htable] at hentry
      exact absurd hentry List.not_mem_nil
    | some table =>
      rw [htable] at hentry
      obtain ⟨v, hv, hread⟩ := RecordKind.spelled_of_read "components" .root rfl rfl htable
      obtain ⟨fields, hfields, rfl⟩ := Option.map_eq_some_iff.1 hread
      exact RecordKind.spelled_of_readTable "schemas" hv hfields rfl hentry

theorem Schema.spelled_unwrapNullable (h : Spelled root .schema schema) :
    Spelled root .schema schema.unwrapNullable := by
  rw [Schema.unwrapNullable]
  split_ifs
  · exact h
  · split
    · rename_i only hreal
      have hmem : only ∈ schema.realVariants := by rw [hreal]; exact List.mem_singleton_self only
      obtain ⟨v, hv, hread⟩ := h
      replace hread : Schema.ofJson? v = some schema := hread
      rw [Schema.ofJson?_eq] at hread
      obtain ⟨fields, hfields, rfl⟩ := Option.map_eq_some_iff.1 hread
      have hvariant := List.mem_of_mem_filter hmem
      rw [Schema.variants_ofFields_eq] at hvariant
      exact RecordKind.spelled_of_readList "anyOf" hv hfields rfl hvariant
    · exact h

end

/-- **Every node with a schema record is spelled in the document.** -/
theorem Document.spelled_recordedNodes {node : Schema}
    (h : node ∈ (Document.ofFields root).recordedNodes) : Spelled root .schema node := by
  rw [Document.recordedNodes, List.mem_append] at h
  rcases h with h | h
  · exact Document.spelled_schemas (List.mem_append_right _ h)
  · obtain ⟨visit, hvisit, hnode⟩ := List.mem_flatMap.1 h
    obtain ⟨schema, hschema, rfl⟩ := List.mem_map.1 (List.mem_of_mem_filter hnode)
    have hop : schema ∈ visit.operation.schemas := by
      rcases List.mem_append.1 hschema with hschema | hschema
      · exact Operation.bodySchema_mem (Option.mem_toList.1 hschema)
      · exact Operation.responseSchema_mem (Option.mem_toList.1 hschema)
    exact Schema.spelled_unwrapNullable
      (Document.spelled_schemas (Document.schemas_visit hvisit hop))

/-! ## Entries in their order -/

/-- The entries of a table that are read as nodes, in order. -/
def Json.nodeEntries : Json → List (String × Json)
  | .obj entries => entries.filter fun entry => entry.2.isRecord 10
  | _ => []

/-- The names of the properties of a node, in order. -/
def Json.propertyNames (value : Json) : List String :=
  Fields.keys ((((value.record? RecordKind.schema.keys).bind (Fields.get? "properties")).map
    nodeEntries).getD [])

/-- The schema table of a document, if it is there. -/
def Document.tableValue (root : List (String × Json)) : Option Json :=
  (Fields.read "components" (Json.record? RecordKind.components.keys) root).bind
    (Fields.get? "schemas")

/-- The entries of the schema table of a document, in order. -/
def Document.tableEntries (root : List (String × Json)) : List (String × Json) :=
  ((tableValue root).map Json.nodeEntries).getD []

/-- The name of a schema record, and those of its properties. -/
def SchemaRecord.names (record : SchemaRecord) : String × List String :=
  (record.name, record.properties.map PropertyRecord.name)

theorem Schema.names_record (title : String) (node : Schema) :
    (node.record title).names = (title, Fields.keys node.properties) := by
  show (title, (node.properties.map _).map PropertyRecord.name) = _
  rw [List.map_map]
  rfl

/-- Entries are read one after another. -/
theorem Json.forall₂_readEntries (value : Json) :
    List.Forall₂ (fun (field : String × Schema) (entry : String × Json) =>
      field.1 = entry.1 ∧ Schema.ofJson? entry.2 = some field.2)
      (value.readEntries Schema.ofJson?) value.nodeEntries := by
  cases value with
  | obj entries =>
    rw [nodeEntries, readEntries]
    induction entries with
    | nil => exact .nil
    | cons entry rest ih =>
      obtain ⟨key, value⟩ := entry
      have hrecord := Schema.isSome_ofJson? value
      rw [Fields.filterMapValues, List.filterMap_cons, ← Fields.filterMapValues]
      cases hnode : Schema.ofJson? value with
      | none =>
        rw [hnode] at hrecord
        rw [List.filter_cons_of_neg (by simp [← hrecord])]
        simpa only [hnode, Option.map_none] using ih
      | some node =>
        rw [hnode] at hrecord
        rw [List.filter_cons_of_pos (by exact hrecord.symm)]
        simpa only [hnode, Option.map_some] using List.Forall₂.cons ⟨rfl, hnode⟩ ih
  | _ => exact .nil

/-- **The properties of a node** have the names and the order of the entries. -/
theorem Schema.keys_properties {value : Json} {node : Schema} (h : ofJson? value = some node) :
    Fields.keys node.properties = value.propertyNames := by
  rw [ofJson?_eq] at h
  obtain ⟨fields, hfields, rfl⟩ := Option.map_eq_some_iff.1 h
  replace hfields : value.record? RecordKind.schema.keys = some fields := hfields
  rw [properties_ofFields, Json.propertyNames, hfields, Option.bind_some]
  cases Fields.get? "properties" fields with
  | none => rfl
  | some table =>
    show (table.readEntries ofJson?).map Prod.fst = table.nodeEntries.map Prod.fst
    rw [← List.forall₂_eq_eq_eq, List.forall₂_map_left_iff, List.forall₂_map_right_iff]
    exact table.forall₂_readEntries.imp fun _ _ hread => hread.1

theorem Json.DistinctKeys.record? {value w : Json} {names : List String} {key : String}
    (h : value.DistinctKeys) (hfields : value.record? names = some fields)
    (hw : Fields.get? key fields = some w) : w.DistinctKeys := by
  have hmem := Fields.mem_of_get? hw
  cases value with
  | obj _ =>
    obtain rfl := Option.some.inj hfields
    exact h.field hmem
  | arr items =>
    replace hfields : (if items.length ≤ names.length then some (names.zip items) else none) =
      some fields := hfields
    split_ifs at hfields
    obtain rfl := Option.some.inj hfields
    exact h.item (List.of_mem_zip hmem).2
  | _ => cases hfields

namespace Document

theorem nodup_readEntries {value : Json} (h : value.DistinctKeys) :
    (Fields.keys (value.readEntries Schema.ofJson?)).Nodup := by
  cases value with
  | obj entries => exact h.keys.sublist (Fields.keys_filterMapValues_sublist _ _)
  | _ => exact List.nodup_nil

theorem distinctKeys_tableValue {value : Json} (h : (Json.obj root).DistinctKeys)
    (hvalue : tableValue root = some value) : value.DistinctKeys := by
  obtain ⟨fields, hfields, hvalue⟩ := Option.bind_eq_some_iff.1 hvalue
  obtain ⟨components, hcomponents, hfields⟩ := Option.bind_eq_some_iff.1 hfields
  exact (h.field (Fields.mem_of_get? hcomponents)).record? hfields hvalue

theorem entries_schemas (h : (Json.obj root).DistinctKeys) :
    (ofFields root).schemas.entries =
      ((tableValue root).map (Json.readEntries Schema.ofJson?)).getD [] := by
  have hentries : (ofFields root).schemas =
      Table.ofList (((tableValue root).map (Json.readEntries Schema.ofJson?)).getD []) := by
    show Fields.readTable _ _
      ((Fields.read "components" (Json.record? RecordKind.components.keys) root).getD []) = _
    rw [tableValue]
    cases Fields.read "components" (Json.record? RecordKind.components.keys) root <;> rfl
  rw [hentries]
  cases hvalue : tableValue root with
  | none => rfl
  | some value => exact Table.entries_ofList (nodup_readEntries (distinctKeys_tableValue h hvalue))

/-- The records of the schema table come in the order of its entries. -/
theorem map_names_tableRecords (h : (Json.obj root).DistinctKeys) :
    (ofFields root).tableRecords.map SchemaRecord.names =
      (tableEntries root).map fun entry => (entry.1, entry.2.propertyNames) := by
  rw [tableRecords, entries_schemas h, tableEntries, List.map_map]
  cases tableValue root with
  | none => rfl
  | some value =>
    show (value.readEntries Schema.ofJson?).map _ = value.nodeEntries.map _
    rw [← List.forall₂_eq_eq_eq, List.forall₂_map_left_iff, List.forall₂_map_right_iff]
    refine value.forall₂_readEntries.imp fun field entry hread => ?_
    rw [← hread.1, ← Schema.keys_properties hread.2]
    exact Schema.names_record field.1 field.2

end Document

/-- Operations come in the order of paths and methods, schemas in the order of the schema
    table, and the properties of each schema in the order of the entries of a node. -/
structure Digest.FollowsEntries (root : List (String × Json)) (digest : Digest) : Prop where
  operations : digest.operations.map OperationRecord.place =
    placesWhere Json.readsAs ((Json.obj root).fieldsAt "paths")
  schemas : ((Document.tableEntries root).map fun entry => (entry.1, entry.2.propertyNames)) <+:
    digest.schemas.map SchemaRecord.names
  properties : ∀ record ∈ digest.schemas, ∃ value, StandsIn root (.record .schema) value ∧
    record.properties.map PropertyRecord.name = value.propertyNames

namespace Document

/-- **Operations, schemas and properties keep their order.** -/
theorem followsEntries_digest (h : (Json.obj root).DistinctKeys) :
    (ofFields root).digest.FollowsEntries root where
  operations := places_ofFields h
  schemas := by
    rw [digest_schemas, List.map_append, map_names_tableRecords h]
    exact List.prefix_append _ _
  properties record hrecord := by
    obtain ⟨node, hnode, hrecord⟩ := exists_of_forall₂ (ofFields root).forall₂_records hrecord
    obtain ⟨value, hvalue, hread⟩ := spelled_recordedNodes hnode
    have hnames := congrArg Prod.snd (Schema.names_record record.name node)
    rw [← hrecord] at hnames
    exact ⟨value, hvalue, hnames.trans (Schema.keys_properties hread)⟩

/-- **A digest shows the order of entries, and nothing that is not read:** documents that
    differ in the order of keys of records, and in keys that are not read, have the same
    digest, while operations, schemas and properties come in the order of their entries. -/
theorem digest_by_keys (root : List (String × Json)) :
    (∀ other, (Role.record .document).Alike (.obj root) (.obj other) →
      ∃ d e, Document.ofJson (.obj root) = .ok d ∧ Document.ofJson (.obj other) = .ok e ∧
        d.digest = e.digest) ∧
    ((Json.obj root).DistinctKeys → ∃ document, Document.ofJson (.obj root) = .ok document ∧
      document.digest.FollowsEntries root) := by
  refine ⟨fun other h => ?_, fun h => ⟨ofFields root, ofJson_obj root, followsEntries_digest h⟩⟩
  refine ⟨ofFields root, ofFields other, ofJson_obj root, ofJson_obj other, ?_⟩
  rw [ofFields_of_alike h]

/-- The width of a shelf, as a parameter. -/
def width : Json := .obj [
  ("name", .str "width"), ("in", .str "query"), ("schema", .obj [("type", .str "integer")])]

/-- The same in another order, with an example and a unit. -/
def widthInInches : Json := .obj [
  ("x-unit", .str "in"), ("schema", .obj [("example", .ofInt 30), ("type", .str "integer")]),
  ("in", .str "query"), ("name", .str "width")]

/-- Shelves and the books on them. -/
def shelving : List (String × Json) := [
  ("openapi", .str "3.0.0"),
  ("paths", .obj [
    ("/shelves", .obj [("post", .obj [("parameters", .arr [width])])]),
    ("/books", .obj [("get", .obj [])])]),
  ("components", .obj [("schemas", .obj [
    ("Shelf", .obj [("properties", .obj [("width", .obj []), ("books", .obj [])])]),
    ("Book", .obj [])])])]

/-- The same with words for the reader. -/
def shelvingGuide : List (String × Json) := [
  ("components", .obj [("schemas", .obj [
    ("Shelf", .obj [("properties", .obj [("width", .obj []), ("books", .obj [])])]),
    ("Book", .obj [])])]),
  ("info", .obj [("title", .str "Shelves")]),
  ("paths", .obj [
    ("/shelves", .obj [
      ("summary", .str "All shelves"),
      ("post", .obj [("parameters", .arr [widthInInches]), ("description", .str "Adds one")])]),
    ("/books", .obj [("get", .obj [])])])]

theorem alike_shelving : (Role.record .document).Alike (.obj shelving) (.obj shelvingGuide) := by
  have hwidth : (Role.record .parameter).Alike width widthInInches := by
    refine Role.alike_at "schema" rfl rfl rfl (Role.alike_of_get? ?_) ?_
    all_goals simp [RecordKind.keys, RecordKind.fields, Fields.keys, Fields.get?]
  have hlist : (Role.list .parameter).Alike (.arr [width]) (.arr [widthInInches]) := by
    refine .list rfl fun pair hpair => ?_
    obtain rfl := List.mem_singleton.1 hpair
    exact hwidth
  have hitem : (Role.record .pathItem).Alike
      (.obj [("post", .obj [("parameters", .arr [width])])])
      (.obj [
        ("summary", .str "All shelves"),
        ("post", .obj [
          ("parameters", .arr [widthInInches]), ("description", .str "Adds one")])]) := by
    refine Role.alike_at "post" rfl rfl rfl (Role.alike_at "parameters" rfl rfl rfl hlist ?_) ?_
    all_goals simp [RecordKind.keys, RecordKind.fields, Fields.keys, Fields.get?, Method.all,
      Method.key]
  refine Role.alike_at "paths" rfl rfl rfl (.table rfl fun pair hpair => ?_) ?_
  · rcases List.mem_pair.1 hpair with rfl | rfl
    · exact hitem
    · exact .refl _ _
  · simp [RecordKind.keys, RecordKind.fields, Fields.keys, Fields.get?, shelving, shelvingGuide]

theorem digest_by_keys_shelving :
    (Role.record .document).Alike (.obj shelving) (.obj shelvingGuide) ∧
      (Json.obj shelving).DistinctKeys ∧
      ∃ d e, Document.ofJson (.obj shelving) = .ok d ∧
        Document.ofJson (.obj shelvingGuide) = .ok e ∧ d.digest = e.digest ∧
        d.digest.operations.map OperationRecord.place = [("/shelves", .post), ("/books", .get)] ∧
        [("Shelf", ["width", "books"]), ("Book", [])] <+:
          d.digest.schemas.map SchemaRecord.names := by
  have hkeys : (Json.obj shelving).DistinctKeys := by decide +kernel
  obtain ⟨hsame, horder⟩ := digest_by_keys shelving
  obtain ⟨d, e, hd, he, hdigest⟩ := hsame shelvingGuide alike_shelving
  obtain ⟨document, hdocument, hfollows⟩ := horder hkeys
  obtain rfl := Except.ok.inj (hd.symm.trans hdocument)
  have hplaces : placesWhere Json.readsAs ((Json.obj shelving).fieldsAt "paths") =
      [("/shelves", .post), ("/books", .get)] := by decide +kernel
  have htable : (tableEntries shelving).map (fun entry => (entry.1, entry.2.propertyNames)) =
      [("Shelf", ["width", "books"]), ("Book", [])] := by decide +kernel
  exact ⟨alike_shelving, hkeys, d, e, hd, he, hdigest, hfollows.operations.trans hplaces,
    htable ▸ hfollows.schemas⟩

end Document
end ApiDigest
