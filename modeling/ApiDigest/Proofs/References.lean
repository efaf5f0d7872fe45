/-
  The schema names that a digest mentions.

  If every pointer into the schema table names an entry of it, every name that a
  digest mentions is that of one of its schema records: names are only read off
  pointers, or made together with a record.

  * `Schema.nodes` are the nodes of a schema at any depth, and
    `Document.PointersResolve` speaks of all nodes of a document;
  * `Digest.mentions` lists the schema names that stand in a digest;
  * `Visit.mentions_digest` is the statement above for a run over some visits, and
    `Document.mentions_subset` that for a document.
-/
import ApiDigest.Document.Reading
import ApiDigest.Proofs.Slots
import Mathlib.Data.List.Count

namespace ApiDigest

/-! ## Nodes at any depth -/

namespace Schema

mutual

/-- The nodes of a schema: itself, and those of its properties, of its items and of
    its variants. -/
def nodes : Schema → List Schema
  | schema@⟨_, _, _, properties, _, items, _, variants, _, _⟩ =>
    schema :: (propertyNodes properties ++ itemNodes items ++ variantNodes variants)

/-- The nodes of some properties. -/
def propertyNodes : List (String × Schema) → List Schema
  | [] => []
  | (_, node) :: rest => nodes node ++ propertyNodes rest

/-- The nodes of optional items. -/
def itemNodes : Option Schema → List Schema
  | none => []
  | some node => nodes node

/-- The nodes of some variants. -/
def variantNodes : List Schema → List Schema
  | [] => []
  | node :: rest => nodes node ++ variantNodes rest

end

theorem mem_propertyNodes {name : String} {child node : Schema} (hnode : node ∈ child.nodes) :
    ∀ {properties : List (String × Schema)}, (name, child) ∈ properties →
      node ∈ propertyNodes properties
  | (_, first) :: rest, h => by
    rw [propertyNodes, List.mem_append]
    rcases List.mem_cons.1 h with h | h
    · obtain ⟨-, rfl⟩ := Prod.mk.inj h
      exact Or.inl hnode
    · exact Or.inr (mem_propertyNodes hnode h)

theorem mem_variantNodes {child node : Schema} (hnode : node ∈ child.nodes) :
    ∀ {variants : List Schema}, child ∈ variants → node ∈ variantNodes variants
  | first :: rest, h => by
    rw [variantNodes, List.mem_append]
    rcases List.mem_cons.1 h with rfl | h
    · exact Or.inl hnode
    · exact Or.inr (mem_variantNodes hnode h)

/-- All pointers into the schema table, at any depth, name one of the given entries. -/
def PointsInto (known : List String) (schema : Schema) : Prop :=
  ∀ node ∈ schema.nodes, ∀ name ∈ node.tableName?, name ∈ known

instance (known : List String) (schema : Schema) : Decidable (schema.PointsInto known) :=
  inferInstanceAs (Decidable (∀ node ∈ schema.nodes, ∀ name ∈ node.tableName?, name ∈ known))

namespace PointsInto

variable {known : List String} {schema child : Schema} {name : String}

theorem tableName (h : schema.PointsInto known) (hname : schema.tableName? = some name) :
    name ∈ known := by
  refine h schema ?_ name hname
  cases schema
  exact List.mem_cons_self

theorem property (h : schema.PointsInto known) (hchild : (name, child) ∈ schema.properties) :
    child.PointsInto known := by
  intro node hnode
  refine h node ?_
  cases schema
  exact List.mem_cons_of_mem _ (List.mem_append_left _ (List.mem_append_left _
    (mem_propertyNodes hnode hchild)))

theorem items (h : schema.PointsInto known) (hchild : schema.items = some child) :
    child.PointsInto known := by
  intro node hnode
  refine h node ?_
  cases schema
  subst hchild
  exact List.mem_cons_of_mem _ (List.mem_append_left _ (List.mem_append_right _ hnode))

theorem variant (h : schema.PointsInto known) (hchild : child ∈ schema.variants) :
    child.PointsInto known := by
  intro node hnode
  refine h node ?_
  cases schema
  exact List.mem_cons_of_mem _ (List.mem_append_right _ (mem_variantNodes hnode hchild))

/-! The functions that pick a node pick one of those. -/

theorem unwrapNullable (h : schema.PointsInto known) : schema.unwrapNullable.PointsInto known := by
  rw [Schema.unwrapNullable]
  split
  · exact h
  · split
    · rename_i only hreal
      have hmem : only ∈ schema.realVariants := by rw [hreal]; exact List.mem_singleton_self only
      exact h.variant (List.mem_of_mem_filter hmem)
    · exact h

theorem arrayItems (h : schema.PointsInto known) (hchild : schema.arrayItems = some child) :
    child.PointsInto known := by
  rw [Schema.arrayItems] at hchild
  split at hchild
  · exact h.items hchild
  · obtain ⟨variant, hfind, hitems⟩ := Option.bind_eq_some_iff.1 hchild
    exact (h.variant (List.mem_of_find?_eq_some hfind)).items hitems

theorem resolveSibling {parent : Schema} (hparent : parent.PointsInto known)
    (h : schema.PointsInto known) :
    (schema.resolveSibling parent.properties).PointsInto known := by
  rw [Schema.resolveSibling]
  cases hs : schema.siblingName?.bind fun name => Fields.get? name parent.properties with
  | none => exact h
  | some sibling =>
    obtain ⟨name, -, hget⟩ := Option.bind_eq_some_iff.1 hs
    exact hparent.property (Fields.mem_of_get? hget)

end PointsInto
end Schema

/-! ## Names in records -/

/-- The schema names in a shape. -/
def ShapeRef.mentions (shape : ShapeRef) : List String := shape.name?.toList ++ shape.itemRef.toList

/-- The schema names in the record of an operation. -/
def OperationRecord.mentions (op : OperationRecord) : List String :=
  (op.body.toList ++ op.response.toList).flatMap ShapeRef.mentions

/-- The schema names in the record of a property. -/
def PropertyRecord.mentions (property : PropertyRecord) : List String :=
  property.ref.toList ++ property.itemRef.toList

/-- The schema names in the properties of a schema record. -/
def SchemaRecord.mentions (record : SchemaRecord) : List String :=
  record.properties.flatMap PropertyRecord.mentions

/-- The schema names in a digest, apart from those of the schema records themselves. -/
def Digest.mentions (digest : Digest) : List String :=
  digest.operations.flatMap OperationRecord.mentions ++ digest.schemas.flatMap SchemaRecord.mentions

namespace Schema.PointsInto

variable {known : List String} {schema : Schema} {name : String}

theorem elementRef (items : Option Schema) (h : ∀ node ∈ items, node.PointsInto known)
    (hname : Schema.elementRef items = some name) : name ∈ known := by
  obtain ⟨node, hnode, hname⟩ := Option.bind_eq_some_iff.1 hname
  exact (h node hnode).tableName hname

theorem mentions_propertyRecord (h : schema.PointsInto known) {key : String} {node : Schema}
    (hnode : (key, node) ∈ schema.properties) (required : List String) :
    (propertyRecord schema.properties required key node).mentions ⊆ known := by
  have hresolved := h.resolveSibling (h.property hnode)
  intro name hname
  rw [PropertyRecord.mentions, List.mem_append, Option.mem_toList, Option.mem_toList] at hname
  rcases hname with href | hitem
  · exact hresolved.unwrapNullable.tableName href
  · refine elementRef _ (fun items hitems => ?_) hitem
    split at hitems
    · obtain ⟨child, hchild, rfl⟩ := Option.map_eq_some_iff.1 hitems
      exact h.resolveSibling (hresolved.arrayItems hchild)
    · exact absurd hitems (Option.not_mem_none items)

theorem mentions_record (h : schema.PointsInto known) (key : String) :
    (schema.record key).mentions ⊆ known := by
  intro name hname
  obtain ⟨property, hproperty, hname⟩ := List.mem_flatMap.1 hname
  obtain ⟨entry, hentry, rfl⟩ := List.mem_map.1 hproperty
  exact h.mentions_propertyRecord hentry schema.required hname

theorem mentions_shapeRef (h : schema.PointsInto known) : schema.shapeRef.mentions ⊆ known := by
  have hnode := h.unwrapNullable
  rw [Schema.shapeRef]
  intro name hname
  split at hname
  · rename_i ref href
    obtain rfl : name = ref := by
      simpa [ShapeRef.mentions, ShapeRef.name?, ShapeRef.itemRef] using hname
    exact hnode.tableName href
  · split at hname
    · refine elementRef schema.unwrapNullable.arrayItems (fun items => hnode.arrayItems) ?_
      simpa [ShapeRef.mentions, ShapeRef.name?, ShapeRef.itemRef] using hname
    · simp [ShapeRef.mentions, ShapeRef.name?, ShapeRef.itemRef] at hname

end Schema.PointsInto

/-! ## The schemas of a document -/

/-- The schemas of some content. -/
def MediaType.schemas (content : Table MediaType) : List Schema :=
  content.entries.filterMap fun entry => entry.2.schema

/-- The schemas of an operation: of its parameters, its body and all its responses. -/
def Operation.schemas (op : Operation) : List Schema :=
  op.parameters.filterMap Parameter.schema ++
    (op.body.toList.flatMap fun body => MediaType.schemas body.content) ++
    op.responses.entries.flatMap fun entry => MediaType.schemas entry.2.content

/-- The schemas under a path. -/
def PathItem.schemas (item : PathItem) : List Schema :=
  item.parameters.filterMap Parameter.schema ++
    item.operations.flatMap fun op => op.2.schemas

/-- The schemas of a document, those of its schema table included. -/
def Document.allSchemas (document : Document) : List Schema :=
  (document.paths.entries.flatMap fun entry => entry.2.schemas) ++
    document.schemas.entries.map Prod.snd

/-- All pointers of a document into its schema table name an entry of it. -/
def Document.PointersResolve (document : Document) : Prop :=
  ∀ schema ∈ document.allSchemas, schema.PointsInto document.schemas.keys

instance (document : Document) : Decidable document.PointersResolve :=
  inferInstanceAs (Decidable (∀ schema ∈ document.allSchemas,
    schema.PointsInto document.schemas.keys))

theorem selectSchema_mem {content : Table MediaType} {schema : Schema}
    (h : selectSchema content = some schema) : schema ∈ MediaType.schemas content := by
  have hentry : ∀ {type : String} {media : MediaType}, (type, media) ∈ content.entries →
      media.schema = some schema → schema ∈ MediaType.schemas content :=
    fun hmem hschema => List.mem_filterMap.2 ⟨_, hmem, hschema⟩
  rw [selectSchema, Option.or_eq_some_iff] at h
  rcases h with h | ⟨-, h⟩
  · obtain ⟨media, hget, hschema⟩ := Option.bind_eq_some_iff.1 h
    exact hentry (Fields.mem_of_get? hget) hschema
  · rw [Option.or_eq_some_iff] at h
    rcases h with h | ⟨-, h⟩
    · obtain ⟨entry, hmem, hschema⟩ := List.exists_of_findSome?_eq_some h
      exact hentry (List.mem_of_mem_filter hmem) hschema
    · obtain ⟨entry, hmem, hschema⟩ := List.exists_of_findSome?_eq_some h
      exact hentry hmem hschema

namespace Operation

variable {op : Operation} {schema : Schema}

theorem bodySchema_mem (h : op.bodySchema? = some schema) : schema ∈ op.schemas := by
  obtain ⟨body, hbody, hselect⟩ := Option.bind_eq_some_iff.1 h
  refine List.mem_append_left _ (List.mem_append_right _ (List.mem_flatMap.2 ⟨body, ?_, ?_⟩))
  · exact Option.mem_toList.2 hbody
  · exact selectSchema_mem hselect

theorem responseSchema_mem (h : op.responseSchema? = some schema) : schema ∈ op.schemas := by
  obtain ⟨response, hresponse, hselect⟩ := Option.bind_eq_some_iff.1 h
  obtain ⟨status, -, hget⟩ := List.exists_of_findSome?_eq_some hresponse
  exact List.mem_append_right _ (List.mem_flatMap.2
    ⟨(status, response), Fields.mem_of_get? hget, selectSchema_mem hselect⟩)

end Operation

theorem Document.schemas_visit {document : Document} {visit : Visit}
    (h : visit ∈ document.visits) : visit.operation.schemas ⊆ document.allSchemas := by
  obtain ⟨⟨path, item⟩, hitem, hvisit⟩ := List.mem_flatMap.1 h
  obtain ⟨⟨method, op⟩, hop, rfl⟩ := List.mem_map.1 hvisit
  intro schema hschema
  exact List.mem_append_left _ (List.mem_flatMap.2 ⟨(path, item), hitem,
    List.mem_append_right _ (List.mem_flatMap.2 ⟨(method, op), hop, hschema⟩)⟩)

/-! ## Names in a digest -/

section
variable {known taken : List String}

theorem Slot.mentions_shape {schema : Option Schema} (h : ∀ s ∈ schema, s.PointsInto known)
    (id ending : String) {name : String}
    (hname : name ∈ (Slot.shape taken (Slot.of? id ending schema)).toList.flatMap
      ShapeRef.mentions) :
    name ∈ known ∨
      name ∈ (Slot.make taken (Slot.of? id ending schema)).toList.map SchemaRecord.name := by
  cases schema with
  | none => exact absurd hname List.not_mem_nil
  | some schema =>
    obtain ⟨shape, hshape, hname⟩ := List.mem_flatMap.1 hname
    obtain rfl := Option.some.inj (Option.mem_toList.1 hshape)
    cases hmake : Slot.make taken (Slot.of? id ending (some schema)) with
    | none =>
      rw [hmake] at hname
      exact Or.inl ((h schema rfl).unwrapNullable.mentions_shapeRef hname)
    | some record =>
      rw [hmake] at hname
      refine Or.inr ?_
      simpa [Slot.shapeRef, ShapeRef.mentions, ShapeRef.name?, ShapeRef.itemRef] using hname

theorem Slot.mentions_make {schema : Option Schema} (h : ∀ s ∈ schema, s.PointsInto known)
    (id ending : String) :
    ∀ record ∈ Slot.make taken (Slot.of? id ending schema), record.mentions ⊆ known := by
  intro record hrecord
  obtain ⟨slot, hslot, hrecord⟩ := Option.bind_eq_some_iff.1 hrecord
  obtain ⟨schema, hschema, rfl⟩ := Option.map_eq_some_iff.1 hslot
  rw [Slot.record?] at hrecord
  split at hrecord
  · obtain rfl := Option.some.inj hrecord
    exact (h schema hschema).unwrapNullable.mentions_record _
  · exact absurd hrecord.symm (Option.some_ne_none record)

end

namespace Visit

variable {known : List String}

/-- A visit mentions names of the table and of the records that it makes. -/
theorem mentions_digested (taken : List String) {visit : Visit} (id : String)
    (h : ∀ schema ∈ visit.operation.schemas, schema.PointsInto known) :
    ∀ name ∈ (visit.digested taken id).mentions,
      name ∈ known ∨ name ∈ (visit.made taken id).map SchemaRecord.name := by
  intro name hname
  rw [OperationRecord.mentions, List.flatMap_append, List.mem_append] at hname
  rw [made, List.map_append, List.mem_append]
  rcases hname with hname | hname
  · refine (Slot.mentions_shape (fun s hs => h s ?_) id "Body" hname).imp_right Or.inl
    exact Operation.bodySchema_mem hs
  · refine (Slot.mentions_shape (fun s hs => h s ?_) id "Response" hname).imp_right Or.inr
    exact Operation.responseSchema_mem hs

theorem mentions_made (taken : List String) {visit : Visit} (id : String)
    (h : ∀ schema ∈ visit.operation.schemas, schema.PointsInto known) :
    (visit.made taken id).flatMap SchemaRecord.mentions ⊆ known := by
  intro name hname
  obtain ⟨record, hrecord, hname⟩ := List.mem_flatMap.1 hname
  rw [made, List.mem_append, Option.mem_toList, Option.mem_toList] at hrecord
  rcases hrecord with hrecord | hrecord
  · exact Slot.mentions_make (fun s hs => h s (Operation.bodySchema_mem hs)) id "Body" record
      hrecord hname
  · exact Slot.mentions_make (fun s hs => h s (Operation.responseSchema_mem hs)) id "Response"
      record hrecord hname

/-- **A run mentions names of the table and of the records that it makes.** -/
theorem mentions_digest (taken : List String) : ∀ {visits : List (Visit × String)},
    (∀ visit ∈ visits, ∀ schema ∈ visit.1.operation.schemas, schema.PointsInto known) →
    ∀ name ∈ (digest taken visits).mentions,
      name ∈ known ∨ name ∈ (digest taken visits).schemas.map SchemaRecord.name
  | [], _, name, hname => absurd hname List.not_mem_nil
  | (visit, id) :: rest, h, name, hname => by
    have hvisit := h (visit, id) List.mem_cons_self
    have hrest := mentions_digest (visit.takeNames taken id)
      (fun v hv => h v (List.mem_cons_of_mem _ hv)) name
    rw [Digest.mentions, List.mem_append] at hname hrest
    rw [operations_cons, schemas_cons, List.flatMap_cons, List.flatMap_append, List.mem_append,
      List.mem_append] at hname
    rw [schemas_cons, List.map_append, List.mem_append]
    rcases hname with (hname | hname) | (hname | hname)
    · exact (mentions_digested taken id hvisit name hname).imp_right Or.inl
    · exact (hrest (Or.inl hname)).imp_right Or.inr
    · exact Or.inl (mentions_made taken id hvisit hname)
    · exact (hrest (Or.inr hname)).imp_right Or.inr

end Visit

namespace Document

theorem mentions_subset {document : Document} (h : document.PointersResolve) :
    document.digest.mentions ⊆ document.digest.schemas.map SchemaRecord.name := by
  have hvisits : ∀ visit ∈ document.visits.zip document.operationIds,
      ∀ schema ∈ visit.1.operation.schemas, schema.PointsInto document.schemas.keys :=
    fun visit hvisit schema hschema => h schema (schemas_visit (List.of_mem_zip hvisit).1 hschema)
  have hrun := Visit.mentions_digest document.schemas.keys hvisits
  intro name hname
  rw [digest_schemas, List.map_append, names_tableRecords, List.mem_append]
  rw [Digest.mentions, digest_schemas, List.flatMap_append, List.mem_append,
    List.mem_append] at hname
  rcases hname with hname | hname | hname
  · exact hrun name (List.mem_append_left _ hname)
  · obtain ⟨record, hrecord, hname⟩ := List.mem_flatMap.1 hname
    obtain ⟨entry, hentry, rfl⟩ := List.mem_map.1 hrecord
    have hschema : entry.2 ∈ document.allSchemas :=
      List.mem_append_right _ (List.mem_map_of_mem hentry)
    exact Or.inl ((h entry.2 hschema).mentions_record entry.1 hname)
  · exact hrun name (List.mem_append_right _ hname)

/-- **Names resolve**: if the pointers of a document do, every schema name in its digest
    is that of exactly one schema record. -/
theorem mentions_resolve {document : Document} (h : document.PointersResolve) :
    ∀ name ∈ document.digest.mentions,
      (document.digest.schemas.map SchemaRecord.name).count name = 1 :=
  fun _ hname => List.count_eq_one_of_mem document.nodup_schemaNames (mentions_subset h hname)

/-- A body described in place whose name is taken, with a pointer behind a wrapper for
    null, and an array of what a sibling points at. -/
def pets : Document := ofFields [
  ("paths", .obj [("/pets", .obj [("post", .obj [
    ("operationId", .str "save"),
    ("requestBody", .obj [("content", .obj [("application/json", .obj [("schema", .obj [
      ("properties", .obj [
        ("owner", .obj [("anyOf", .arr [
          .obj [("$ref", .str "#/components/schemas/Pet")], .obj [("type", .str "null")]])]),
        ("first", .obj [("$ref", .str "#/components/schemas/Pet")]),
        ("others", .obj [("type", .str "array"),
          ("items", .obj [("$ref", .str "#/properties/first")])])])])])])])])])]),
  ("components", .obj [("schemas", .obj [
    ("Pet", .obj [("properties", .obj [("next", .obj [
      ("$ref", .str "#/components/schemas/Pet")])])]),
    ("SaveBody", .obj [])])])]

theorem mentions_resolve_pets :
    pets.PointersResolve ∧ pets.digest.mentions = ["SaveBody2", "Pet", "Pet", "Pet", "Pet"] ∧
      ∀ name ∈ pets.digest.mentions, (pets.digest.schemas.map SchemaRecord.name).count name = 1 := by
  have hpets : pets.PointersResolve := by decide +kernel
  exact ⟨hpets, by decide +kernel, mentions_resolve hpets⟩

end Document
end ApiDigest
