/-
  Where the records of a digest come from.

  Every record is made of one node of the document, and records come in the order of their
  nodes: a schema record has the properties of a node, a shape is a name or what a schema
  describes, and a parameter's record is that of one parameter.  So what holds of the
  records of all nodes holds in a digest.

  * `Document.recordedNodes` are the nodes that have schema records, and
    `Document.forall₂_records` says that the schema records are theirs;
  * `Document.forall₂_operations`: the shapes in operation records are those of the bodies
    and responses that are visited;
  * `Document.exists_node`, `Document.shape_cases` and `Document.exists_parameter` are what
    this says about a single record.
-/
import ApiDigest.Proofs.MergedParameters
import ApiDigest.Proofs.Slots

namespace ApiDigest

/-- Of related lists, every element of the first has one of the second behind it. -/
theorem exists_of_forall₂ {α β : Type} {R : α → β → Prop} {l : List α} {m : List β} {a : α}
    (h : List.Forall₂ R l m) (ha : a ∈ l) : ∃ b ∈ m, R a b := by
  induction h with
  | nil => exact absurd ha List.not_mem_nil
  | cons hhead _ ih =>
    rcases List.mem_cons.1 ha with rfl | ha
    · exact ⟨_, List.mem_cons_self, hhead⟩
    · obtain ⟨b, hb, hrel⟩ := ih ha
      exact ⟨b, List.mem_cons_of_mem _ hb, hrel⟩

/-! ## Nodes with schema records -/

/-- Whether a body with this node is described in place: it has properties, and does not
    point at the schema table. -/
def Schema.inPlace (node : Schema) : Bool := node.hasProperties && node.tableName?.isNone

/-- The nodes of a visit's body and response, as far as they are described in place. -/
def Visit.inlineNodes (visit : Visit) : List Schema :=
  ((visit.operation.bodySchema?.toList ++ visit.operation.responseSchema?.toList).map
    Schema.unwrapNullable).filter Schema.inPlace

/-- The nodes of the schema table, and after them those that are described in place, in
    visiting order. -/
def Document.recordedNodes (document : Document) : List Schema :=
  document.schemas.entries.map Prod.snd ++ document.visits.flatMap Visit.inlineNodes

theorem InlineBody.map_node_of? (schema : Option Schema) (shape : Option ShapeRef) :
    (InlineBody.of? schema shape).toList.map InlineBody.node =
      (schema.toList.map Schema.unwrapNullable).filter Schema.inPlace := by
  cases schema with
  | none => rfl
  | some schema =>
    have hnode : schema.unwrapNullable.inPlace = true ↔
        schema.unwrapNullable.hasProperties = true ∧ schema.unwrapNullable.tableName? = none := by
      simp [Schema.inPlace]
    by_cases h : schema.unwrapNullable.inPlace = true
    · simp [of?, h, hnode.1 h]
    · simp [of?, h, mt hnode.2 h]

theorem Visit.map_node_inlineBodies (visit : Visit) (op : OperationRecord) :
    (visit.inlineBodies op).map InlineBody.node = visit.inlineNodes := by
  rw [inlineBodies, List.map_append, InlineBody.map_node_of?, InlineBody.map_node_of?,
    inlineNodes, List.map_append, List.filter_append]

theorem Document.map_node_inlineBodies (document : Document) :
    document.inlineBodies.map InlineBody.node = document.visits.flatMap Visit.inlineNodes := by
  have hlength : document.visits.length ≤ document.digest.operations.length := by
    have hplaces := congrArg List.length document.places_operations
    rw [List.length_map, List.length_map] at hplaces
    exact Nat.le_of_eq hplaces.symm
  have hvisits := List.map_fst_zip hlength
  rw [inlineBodies, List.map_flatMap]
  simp only [Visit.map_node_inlineBodies]
  rw [← List.flatMap_map, hvisits]

/-- **The schema records of a digest** are those of the recorded nodes, in order. -/
theorem Document.forall₂_records (document : Document) :
    List.Forall₂ (fun record node => record = Schema.record record.name node)
      document.digest.schemas document.recordedNodes := by
  rw [digest_schemas, recordedNodes, ← map_node_inlineBodies]
  refine List.rel_append ?_ ?_
  · rw [tableRecords, List.forall₂_map_left_iff, List.forall₂_map_right_iff]
    exact List.forall₂_same.2 fun _ _ => rfl
  · rw [List.forall₂_map_right_iff]
    exact (document.forall₂_madeSchemas.imp fun _ _ hrecord => hrecord.2).flip

/-! ## Shapes of schemas -/

/-- What a digest says about the schema of a body: a name if it is described in place, else
    its shape, wrappers for null aside. -/
inductive ShapeRef.Describes : ShapeRef → Schema → Prop
  | name {schema : Schema} (name : String) :
      schema.unwrapNullable.inPlace = true → Describes (.named name) schema
  | shape {schema : Schema} :
      schema.unwrapNullable.inPlace = false → Describes schema.unwrapNullable.shapeRef schema

/-- The shapes in the record are those of a visit's body and response. -/
structure OperationRecord.Describes (op : OperationRecord) (visit : Visit) : Prop where
  body : Option.Rel ShapeRef.Describes op.body visit.operation.bodySchema?
  response : Option.Rel ShapeRef.Describes op.response visit.operation.responseSchema?

theorem Slot.rel_shape (taken : List String) (id ending : String) (schema : Option Schema) :
    Option.Rel ShapeRef.Describes (Slot.shape taken (Slot.of? id ending schema)) schema := by
  cases schema with
  | none => exact .none
  | some schema =>
    set slot : Slot := ⟨Naming.capitalize id ++ ending, schema.unwrapNullable⟩ with hslot
    have hinline : slot.isInline = schema.unwrapNullable.inPlace := Bool.and_comm _ _
    show Option.Rel _ (some (slot.shapeRef (Slot.make taken (some slot)))) _
    cases h : slot.isInline with
    | false =>
      rw [Slot.make_of_not_inline h]
      exact .some (.shape (hinline ▸ h))
    | true =>
      rw [Slot.make_of_inline h]
      exact .some (.name _ (hinline ▸ h))

theorem Visit.forall₂_operations : ∀ (taken : List String) (visits : List (Visit × String)),
    List.Forall₂ OperationRecord.Describes (digest taken visits).operations (visits.map Prod.fst)
  | _, [] => .nil
  | taken, (visit, id) :: rest => by
    rw [operations_cons, List.map_cons]
    exact .cons ⟨Slot.rel_shape taken id "Body" _, Slot.rel_shape _ id "Response" _⟩
      (forall₂_operations _ rest)

/-- **The shapes in the operation records of a digest** are those of the visits, in order. -/
theorem Document.forall₂_operations (document : Document) :
    List.Forall₂ OperationRecord.Describes document.digest.operations document.visits := by
  have hlength := Nat.le_of_eq document.length_operationIds.symm
  have := Visit.forall₂_operations document.schemas.keys (document.visits.zip document.operationIds)
  rwa [List.map_fst_zip hlength] at this

/-! ## Single records -/

/-- **Every operation record of a run is that of a visit.** -/
theorem Visit.exists_visit {op : OperationRecord} :
    ∀ {taken : List String} {visits : List (Visit × String)},
      op ∈ (digest taken visits).operations →
      ∃ visit ∈ visits, ∃ names, op = visit.1.digested names visit.2
  | _, [], h => absurd h List.not_mem_nil
  | taken, (visit, id) :: rest, h => by
    rw [operations_cons] at h
    rcases List.mem_cons.1 h with rfl | h
    · exact ⟨(visit, id), List.mem_cons_self, taken, rfl⟩
    · obtain ⟨origin, horigin, names, hop⟩ := exists_visit h
      exact ⟨origin, List.mem_cons_of_mem _ horigin, names, hop⟩

/-- An optional shape is a name, or what a node describes. -/
theorem ShapeRef.cases_of_rel {shape : ShapeRef} {described : Option ShapeRef}
    {schema : Option Schema} (h : Option.Rel Describes described schema)
    (hshape : shape ∈ described) :
    (∃ name, shape = .named name) ∨ ∃ node : Schema, shape = node.shapeRef := by
  obtain rfl := hshape
  cases h with
  | some h =>
    cases h with
    | name name _ => exact Or.inl ⟨name, rfl⟩
    | shape _ => exact Or.inr ⟨_, rfl⟩

namespace Document

variable {document : Document}

/-- **A schema record has the properties of a node**, under its own name. -/
theorem exists_node {record : SchemaRecord} (h : record ∈ document.digest.schemas) :
    ∃ node : Schema, record = node.record record.name := by
  obtain ⟨node, -, hrecord⟩ := exists_of_forall₂ document.forall₂_records h
  exact ⟨node, hrecord⟩

section
variable {op : OperationRecord} (h : op ∈ document.digest.operations)
include h

/-- **The shape of a body or a response** is a name, or what a node describes. -/
theorem shape_cases {shape : ShapeRef} (hshape : shape ∈ op.body.toList ++ op.response.toList) :
    (∃ name, shape = .named name) ∨ ∃ node : Schema, shape = node.shapeRef := by
  obtain ⟨visit, -, hop⟩ := exists_of_forall₂ document.forall₂_operations h
  rcases List.mem_append.1 hshape with hbody | hresponse
  · exact ShapeRef.cases_of_rel hop.body (Option.mem_toList.1 hbody)
  · exact ShapeRef.cases_of_rel hop.response (Option.mem_toList.1 hresponse)

/-- **A parameter's record** is that of a parameter. -/
theorem exists_parameter {record : ParamRecord}
    (hrecord : record ∈ op.pathParams ++ op.queryParams) :
    ∃ parameter : Parameter, parameter.record? = some record := by
  obtain ⟨visit, -, names, rfl⟩ := Visit.exists_visit h
  have hmem : record ∈ mergeParameters visit.1.shared visit.1.operation.parameters := by
    rcases List.mem_append.1 hrecord with hpath | hquery
    · exact List.mem_of_mem_filter hpath
    · exact List.mem_of_mem_filter hquery
  obtain ⟨parameter, -, hparameter⟩ := ApiDigest.exists_parameter hmem
  exact ⟨parameter, hparameter⟩

end
end Document
end ApiDigest
