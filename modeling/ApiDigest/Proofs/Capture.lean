/-
  Names that pointers spell, and names that are made.

  A schema name comes into a digest in one of two ways: a pointer of the document spells
  it, or a body described in place got its record under it.  Made names keep clear of the
  schema table and of each other.  They do not keep clear of pointers without an entry
  behind them, so such a pointer can come to name the record of a body that it has
  nothing to do with.

  * `Document.pointerNames` are the names that come by pointers, `Document.madeNames`
    those that are made, and `Document.mentions_perm` says that there are no others;
  * `Document.CaptureFree` says that no pointer comes to name the record of a body;
  * `Document.pointer_names_cases`: what the name of a pointer stands for in a digest.
-/
import ApiDigest.Proofs.References
import ApiDigest.Proofs.Stability

namespace ApiDigest

/-! ## Names that come by pointers -/

/-- The names that come by the pointers of a body with a schema: of one described in
    place those of its properties, of any other that of its shape. -/
def Schema.bodyPointerNames (schema : Schema) : List String :=
  let node := schema.unwrapNullable
  if node.tableName?.isNone && node.hasProperties then
    node.propertyRecords.flatMap PropertyRecord.mentions
  else node.shapeRef.mentions

/-- The names that come by the pointers of an operation's body and response. -/
def Operation.pointerNames (op : Operation) : List String :=
  op.bodySchema?.toList.flatMap Schema.bodyPointerNames ++
    op.responseSchema?.toList.flatMap Schema.bodyPointerNames

namespace Document

/-- The names that come into the digest by pointers. -/
def pointerNames (document : Document) : List String :=
  (document.visits.flatMap fun visit => visit.operation.pointerNames) ++
    document.tableRecords.flatMap SchemaRecord.mentions

/-- The names that are made for bodies described in place. -/
def madeNames (document : Document) : List String :=
  document.madeSchemas.map SchemaRecord.name

/-- A name that comes by a pointer is that of a table entry, or of no record. -/
def CaptureFree (document : Document) : Prop :=
  ∀ name ∈ document.pointerNames, name ∈ document.schemas.keys ∨
    name ∉ document.digest.schemas.map SchemaRecord.name

instance (document : Document) : Decidable document.CaptureFree :=
  inferInstanceAs (Decidable (∀ name ∈ document.pointerNames, name ∈ document.schemas.keys ∨
    name ∉ document.digest.schemas.map SchemaRecord.name))

end Document

/-! ## Every name comes in one of the two ways -/

section
variable (name : String) (taken : List String)

/-- A body mentions the names of its pointers, and the name of its record once. -/
theorem Slot.count_mentions (id ending : String) (schema : Option Schema) :
    ((Slot.shape taken (Slot.of? id ending schema)).toList.flatMap ShapeRef.mentions).count name +
        ((Slot.make taken (Slot.of? id ending schema)).toList.flatMap
          SchemaRecord.mentions).count name =
      (schema.toList.flatMap Schema.bodyPointerNames).count name +
        ((Slot.make taken (Slot.of? id ending schema)).toList.map
          SchemaRecord.name).count name := by
  cases schema with
  | none => rfl
  | some schema =>
    set slot : Slot := ⟨Naming.capitalize id ++ ending, schema.unwrapNullable⟩
    have hof : Slot.of? id ending (some schema) = some slot := rfl
    have hpointers : schema.bodyPointerNames =
        if slot.isInline then slot.node.propertyRecords.flatMap PropertyRecord.mentions
        else slot.node.shapeRef.mentions := rfl
    rw [hof]
    cases hi : slot.isInline with
    | false => simp [Slot.shape, Slot.make_of_not_inline hi, Slot.shapeRef, hpointers, hi]
    | true =>
      have hrecord : (slot.node.record (Naming.freeName taken slot.wish)).mentions =
          slot.node.propertyRecords.flatMap PropertyRecord.mentions := rfl
      simp [Slot.shape, Slot.make_of_inline hi, Slot.shapeRef, hpointers, hi, hrecord,
        ShapeRef.mentions, ShapeRef.name?, ShapeRef.itemRef, Nat.add_comm]

theorem Visit.count_mentions (visit : Visit) (id : String) :
    (visit.digested taken id).mentions.count name +
        ((visit.made taken id).flatMap SchemaRecord.mentions).count name =
      visit.operation.pointerNames.count name +
        ((visit.made taken id).map SchemaRecord.name).count name := by
  have hbody := Slot.count_mentions name taken id "Body" visit.operation.bodySchema?
  have hresponse := Slot.count_mentions name (Slot.take taken (visit.operation.bodySlot? id)) id
    "Response" visit.operation.responseSchema?
  have hdigested : (visit.digested taken id).mentions =
      ((Slot.shape taken (visit.operation.bodySlot? id)).toList ++
        (Slot.shape (Slot.take taken (visit.operation.bodySlot? id))
          (visit.operation.responseSlot? id)).toList).flatMap ShapeRef.mentions := rfl
  rw [hdigested, made, Operation.pointerNames, List.flatMap_append, List.flatMap_append,
    List.map_append, List.count_append, List.count_append, List.count_append, List.count_append]
  simp only [Operation.bodySlot?, Operation.responseSlot?] at hresponse ⊢
  omega

/-- **A run mentions the names of its pointers**, and the name of each record that it
    makes once more. -/
theorem Visit.count_mentions_digest : ∀ (taken : List String) (visits : List (Visit × String)),
    (digest taken visits).mentions.count name =
      (visits.flatMap fun visit => visit.1.operation.pointerNames).count name +
        ((digest taken visits).schemas.map SchemaRecord.name).count name
  | _, [] => rfl
  | taken, (visit, id) :: rest => by
    have hvisit := count_mentions name taken visit id
    have hrest := count_mentions_digest (visit.takeNames taken id) rest
    rw [Digest.mentions, List.count_append] at hrest ⊢
    rw [operations_cons, schemas_cons, List.flatMap_cons, List.flatMap_cons, List.flatMap_append,
      List.map_append, List.count_append, List.count_append, List.count_append, List.count_append]
    dsimp only
    omega

end

/-! ## The names of pointers are spelled in the document -/

section
variable {known : List String}

theorem Schema.PointsInto.bodyPointerNames {schema : Schema} (h : schema.PointsInto known) :
    schema.bodyPointerNames ⊆ known := by
  rw [Schema.bodyPointerNames]
  split
  · exact h.unwrapNullable.mentions_record ""
  · exact h.unwrapNullable.mentions_shapeRef

theorem Operation.pointerNames_subset {op : Operation}
    (h : ∀ schema ∈ op.schemas, schema.PointsInto known) : op.pointerNames ⊆ known := by
  intro name hname
  rw [pointerNames, List.mem_append, List.mem_flatMap, List.mem_flatMap] at hname
  rcases hname with ⟨schema, hschema, hname⟩ | ⟨schema, hschema, hname⟩
  · exact (h schema (bodySchema_mem (Option.mem_toList.1 hschema))).bodyPointerNames hname
  · exact (h schema (responseSchema_mem (Option.mem_toList.1 hschema))).bodyPointerNames hname

end

/-- **A name that comes by a pointer is spelled by a pointer** of some node of the document. -/
theorem Document.exists_pointer {document : Document} {name : String}
    (h : name ∈ document.pointerNames) :
    ∃ schema ∈ document.allSchemas, ∃ node ∈ schema.nodes, node.tableName? = some name := by
  set known : List String := document.allSchemas.flatMap fun schema =>
    schema.nodes.filterMap Schema.tableName? with hknown
  have hall : ∀ schema ∈ document.allSchemas, schema.PointsInto known :=
    fun schema hschema node hnode name hname => List.mem_flatMap.2
      ⟨schema, hschema, List.mem_filterMap.2 ⟨node, hnode, hname⟩⟩
  have hmem : name ∈ known := by
    rw [pointerNames, List.mem_append, List.mem_flatMap, List.mem_flatMap] at h
    rcases h with ⟨visit, hvisit, hname⟩ | ⟨record, hrecord, hname⟩
    · exact Operation.pointerNames_subset
        (fun schema hschema => hall schema (schemas_visit hvisit hschema)) hname
    · obtain ⟨entry, hentry, rfl⟩ := List.mem_map.1 hrecord
      exact (hall entry.2 (List.mem_append_right _ (List.mem_map_of_mem hentry))).mentions_record
        entry.1 hname
  rw [hknown] at hmem
  obtain ⟨schema, hschema, hmem⟩ := List.mem_flatMap.1 hmem
  exact ⟨schema, hschema, List.mem_filterMap.1 hmem⟩

/-! ## The names that are made -/

section
variable {taken : List String} {record : SchemaRecord}

/-- A body described in place that stands behind a record, under a name that is made from
    the given identifier. -/
def InlineBody.Made (body : InlineBody) (id : String) (record : SchemaRecord) : Prop :=
  body.HasRecord record ∧ ∃ ending ∈ ["Body", "Response"], ∃ k,
    record.name = Naming.candidate (Naming.capitalize id ++ ending) k

theorem Slot.exists_body {id ending : String} {schema : Option Schema}
    (hending : ending ∈ ["Body", "Response"])
    (h : record ∈ Slot.make taken (Slot.of? id ending schema)) :
    ∃ body ∈ InlineBody.of? schema (Slot.shape taken (Slot.of? id ending schema)),
      body.Made id record := by
  have hrecords := InlineBody.forall₂_make taken id ending schema
  rw [Option.mem_def.1 h, Option.toList_some] at hrecords
  obtain ⟨body, rest, hbody, -, heq⟩ := List.forall₂_cons_right_iff.1 hrecords
  refine ⟨body, Option.mem_toList.1 (heq ▸ List.mem_cons_self), hbody, ending, hending, ?_⟩
  obtain ⟨slot, hslot, hrecord⟩ := Option.bind_eq_some_iff.1 h
  obtain ⟨schema, -, rfl⟩ := Option.map_eq_some_iff.1 hslot
  rw [Slot.record?] at hrecord
  split at hrecord
  · obtain rfl := Option.some.inj hrecord
    obtain ⟨k, hk, -⟩ := Naming.freeName_isFirstFree taken (Naming.capitalize id ++ ending)
    exact ⟨k, hk⟩
  · exact absurd hrecord.symm (Option.some_ne_none record)

namespace Visit

theorem exists_body {visit : Visit} {id : String} (h : record ∈ visit.made taken id) :
    ∃ body ∈ visit.inlineBodies (visit.digested taken id), body.Made id record := by
  rw [made, List.mem_append, Option.mem_toList, Option.mem_toList] at h
  rcases h with h | h
  · obtain ⟨body, hbody, hmade⟩ := Slot.exists_body (by simp) h
    exact ⟨body, List.mem_append_left _ (Option.mem_toList.2 hbody), hmade⟩
  · obtain ⟨body, hbody, hmade⟩ := Slot.exists_body (by simp) h
    exact ⟨body, List.mem_append_right _ (Option.mem_toList.2 hbody), hmade⟩

/-- **Behind every record that a run makes stands a body** of one of its visits. -/
theorem exists_body_digest : ∀ {taken : List String} {visits : List (Visit × String)},
    record ∈ (digest taken visits).schemas →
    ∃ pair ∈ (visits.map Prod.fst).zip (digest taken visits).operations,
      ∃ body ∈ pair.1.inlineBodies pair.2, body.Made pair.2.id record
  | _, [], h => absurd h List.not_mem_nil
  | taken, (visit, id) :: rest, h => by
    rw [schemas_cons, List.mem_append] at h
    rw [operations_cons, List.map_cons, List.zip_cons_cons]
    rcases h with h | h
    · exact ⟨(visit, visit.digested taken id), List.mem_cons_self, exists_body h⟩
    · obtain ⟨pair, hpair, hbody⟩ := exists_body_digest h
      exact ⟨pair, List.mem_cons_of_mem _ hpair, hbody⟩

end Visit
end

/-! ## What the name of a pointer stands for -/

namespace Document
variable (document : Document)

/-- **Every name in a digest comes by a pointer or is made.**  A name that is made is
    mentioned once on that account. -/
theorem mentions_perm :
    document.digest.mentions.Perm (document.pointerNames ++ document.madeNames) := by
  refine List.perm_iff_count.2 fun name => ?_
  have hrun := Visit.count_mentions_digest name document.schemas.keys document.identified
  have hvisits : (document.identified.flatMap fun visit => visit.1.operation.pointerNames) =
      document.visits.flatMap fun visit => visit.operation.pointerNames := by
    rw [← map_fst_identified, List.flatMap_map]
  have hmentions : document.digest.mentions =
      (Visit.digest document.schemas.keys document.identified).operations.flatMap
          OperationRecord.mentions ++
        (document.tableRecords ++ document.madeSchemas).flatMap SchemaRecord.mentions := rfl
  rw [hvisits, Digest.mentions, List.count_append] at hrun
  rw [hmentions, pointerNames, madeNames, List.flatMap_append, List.count_append,
    List.count_append, List.count_append, List.count_append]
  change _ + List.count name (document.madeSchemas.flatMap _) =
    _ + List.count name (document.madeSchemas.map _) at hrun
  omega

theorem names_digest :
    document.digest.schemas.map SchemaRecord.name = document.schemas.keys ++ document.madeNames := by
  rw [digest_schemas, List.map_append, names_tableRecords, madeNames]

theorem nodup_keys_append_madeNames : (document.schemas.keys ++ document.madeNames).Nodup := by
  rw [← names_digest]; exact document.nodup_schemaNames

variable {document} {name : String}

/-- A made name is that of the record of one body. -/
theorem exists_body_of_madeName (h : name ∈ document.madeNames) :
    ∃ pair ∈ document.visits.zip document.digest.operations,
      ∃ body ∈ pair.1.inlineBodies pair.2, ∃ record, record.name = name ∧
        body.Made pair.2.id record ∧ document.digest.schema? name = some record := by
  obtain ⟨record, hrecord, rfl⟩ := List.mem_map.1 h
  obtain ⟨pair, hpair, body, hbody, hmade⟩ := Visit.exists_body_digest hrecord
  change pair ∈ (document.identified.map Prod.fst).zip document.digest.operations at hpair
  rw [map_fst_identified] at hpair
  have hdigest : record ∈ document.digest.schemas := by
    rw [digest_schemas]; exact List.mem_append_right _ hrecord
  exact ⟨pair, hpair, body, hbody, record, rfl, hmade,
    find?_key_of_nodup SchemaRecord.name document.nodup_schemaNames record hdigest⟩

/-- No pointer comes to name the record of a body exactly if none spells a made name. -/
theorem captureFree_iff :
    document.CaptureFree ↔ document.madeNames.Disjoint document.pointerNames := by
  obtain ⟨-, -, hnew⟩ := List.nodup_append.1 document.nodup_keys_append_madeNames
  rw [CaptureFree, names_digest]
  constructor
  · intro h name hmade hpointer
    rcases h name hpointer with hkey | hnone
    · exact hnew name hkey name hmade rfl
    · exact hnone (List.mem_append_right _ hmade)
  · intro h name hpointer
    refine or_iff_not_imp_left.2 fun hkey hmem => ?_
    rcases List.mem_append.1 hmem with hmem | hmade
    · exact hkey hmem
    · exact h hmade hpointer

/-- **What the name of a pointer stands for in a digest.**  Every name in a digest comes by
    a pointer or is made, and made names differ from each other and from those of the
    table.  The name of a pointer is that of a table entry and finds the entry's record, or
    it is a made name and finds the record of the body that it was made for, or it finds
    none; and no pointer finds the record of a body exactly if none spells a made name. -/
theorem pointer_names_cases (document : Document) :
    document.digest.mentions.Perm (document.pointerNames ++ document.madeNames) ∧
      (document.schemas.keys ++ document.madeNames).Nodup ∧
      (document.CaptureFree ↔ document.madeNames.Disjoint document.pointerNames) ∧
      ∀ name ∈ document.pointerNames,
        (∃ schema ∈ document.allSchemas, ∃ node ∈ schema.nodes, node.tableName? = some name) ∧
        ((∃ schema, document.schemas.get? name = some schema ∧
            document.digest.schema? name = some (schema.record name)) ∨
          (name ∉ document.schemas.keys ∧ name ∈ document.madeNames ∧
            ∃ pair ∈ document.visits.zip document.digest.operations,
              ∃ body ∈ pair.1.inlineBodies pair.2, ∃ record, record.name = name ∧
                body.Made pair.2.id record ∧ document.digest.schema? name = some record) ∨
          (name ∉ document.schemas.keys ∧ name ∉ document.madeNames ∧
            document.digest.schema? name = none)) := by
  refine ⟨document.mentions_perm, document.nodup_keys_append_madeNames, captureFree_iff,
    fun name hname => ⟨exists_pointer hname, ?_⟩⟩
  cases hentry : document.schemas.get? name with
  | some schema =>
    exact Or.inl ⟨schema, rfl, by rw [schema?_digest, hentry]; rfl⟩
  | none =>
    have hkey : name ∉ document.schemas.keys := Fields.get?_eq_none_iff.1 hentry
    refine Or.inr ?_
    by_cases hmade : name ∈ document.madeNames
    · exact Or.inl ⟨hkey, hmade, exists_body_of_madeName hmade⟩
    · refine Or.inr ⟨hkey, hmade, List.find?_eq_none.2 fun record hrecord hfound => ?_⟩
      have hnames : record.name ∈ document.schemas.keys ++ document.madeNames := by
        rw [← names_digest]; exact List.mem_map_of_mem hrecord
      rw [of_decide_eq_true hfound, List.mem_append] at hnames
      exact hnames.elim hkey hmade

/-- A body described in place gets the name that a pointer elsewhere spells, which has no
    entry behind it. -/
def pages : Document := ofFields [("paths", .obj [
  ("/drafts", .obj [("post", .obj [
    ("operationId", .str "save"),
    ("requestBody", .obj [("content", .obj [("application/json", .obj [("schema", .obj [
      ("properties", .obj [("text", .obj [("type", .str "string")])])])])])])])]),
  ("/pages", .obj [("get", .obj [
    ("operationId", .str "read"),
    ("responses", .obj [("200", .obj [("content", .obj [("application/json", .obj [
      ("schema", .obj [("$ref", .str "#/components/schemas/SaveBody")])])])])])])])])]

theorem not_captureFree_pages :
    ¬ pages.CaptureFree ∧ pages.pointerNames = ["SaveBody"] ∧ pages.schemas.keys = [] ∧
      (pages.digest.operationAt? "/drafts" .post).bind OperationRecord.body =
        some (.named "SaveBody") ∧
      (pages.digest.operationAt? "/pages" .get).bind OperationRecord.response =
        some (.named "SaveBody") ∧
      (pages.digest.schema? "SaveBody").isSome = true := by
  decide +kernel

end Document
end ApiDigest
