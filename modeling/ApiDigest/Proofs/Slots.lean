/-
  The schema records of a digest.

  Besides the records of the schema table there is one for every body or response
  that is described in place.  The walk threads the names that are taken, the
  table's at first, so no two schema records share a name.

  * `Document.inlineBodies` lists the bodies described in place, in visiting order,
    each with what the digest says about it;
  * `Visit.forall₂_schemas` and `Visit.nodup_names` say which records a run over some
    visits makes;
  * `Document.nodup_schemaNames`: names of schema records are unique.
-/
import ApiDigest.Proofs.FreeNames
import ApiDigest.Proofs.Walk
import Mathlib.Data.List.Forall2

namespace ApiDigest

/-! ## One slot -/

namespace Slot

/-- The record that an optional slot makes. -/
def make (taken : List String) (slot : Option Slot) : Option SchemaRecord :=
  slot.bind (Slot.record? taken)

/-- The names that are taken after an optional slot. -/
def take (taken : List String) (slot : Option Slot) : List String :=
  ((make taken slot).map SchemaRecord.name).toList ++ taken

/-- What an operation says about an optional slot. -/
def shape (taken : List String) (slot : Option Slot) : Option ShapeRef :=
  slot.map fun s => s.shapeRef (make taken slot)

variable {taken : List String} {slot : Slot}

theorem isInline_iff :
    slot.isInline = true ↔ slot.node.hasProperties = true ∧ slot.node.tableName? = none := by
  simp [Slot.isInline, and_comm]

theorem make_of_inline (h : slot.isInline = true) :
    make taken (some slot) = some (slot.node.record (Naming.freeName taken slot.wish)) := by
  simp [make, Slot.record?, h]

theorem make_of_not_inline (h : slot.isInline = false) : make taken (some slot) = none := by
  simp [make, Slot.record?, h]

/-- A slot takes no name twice. -/
theorem nodup_take (h : taken.Nodup) : ∀ slot : Option Slot, (take taken slot).Nodup
  | none => h
  | some slot => by
    cases hi : slot.isInline with
    | false => rw [take, make_of_not_inline hi]; exact h
    | true =>
      rw [take, make_of_inline hi]
      exact List.nodup_cons.2 ⟨Naming.freeName_notMem taken slot.wish, h⟩

end Slot

/-! ## Bodies described in place -/

/-- A body or response that is described in place: its node, and what the operation's
    record says about it. -/
structure InlineBody where
  node : Schema
  shape : Option ShapeRef

namespace InlineBody

/-- The body for a selected schema, if that has properties and no pointer into the
    schema table, wrappers for null aside. -/
def of? (schema : Option Schema) (shape : Option ShapeRef) : Option InlineBody :=
  match schema.map Schema.unwrapNullable with
  | some node =>
    if node.hasProperties = true ∧ node.tableName? = none then some ⟨node, shape⟩ else none
  | none => none

/-- The record is that of the body's node, under the name that stands for the body. -/
def HasRecord (body : InlineBody) (record : SchemaRecord) : Prop :=
  body.shape = some (.named record.name) ∧ record = body.node.record record.name

/-- **A slot makes a record exactly for a body described in place.** -/
theorem forall₂_make (taken : List String) (id ending : String) (schema : Option Schema) :
    List.Forall₂ HasRecord (of? schema (Slot.shape taken (Slot.of? id ending schema))).toList
      (Slot.make taken (Slot.of? id ending schema)).toList := by
  cases schema with
  | none => exact .nil
  | some schema =>
    set slot : Slot := ⟨Naming.capitalize id ++ ending, schema.unwrapNullable⟩
    have hof : Slot.of? id ending (some schema) = some slot := rfl
    have hnode : schema.unwrapNullable.hasProperties = true ∧
        schema.unwrapNullable.tableName? = none ↔ slot.isInline = true := (@Slot.isInline_iff slot).symm
    rw [hof]
    cases hi : slot.isInline with
    | false =>
      have hnot := mt hnode.1 (Bool.eq_false_iff.1 hi)
      rw [Slot.make_of_not_inline hi]
      simp only [of?, Option.map_some, if_neg hnot]
      exact .nil
    | true =>
      simp only [of?, Option.map_some, if_pos (hnode.2 hi), Slot.shape, Slot.make_of_inline hi]
      exact .cons ⟨rfl, rfl⟩ .nil

end InlineBody

/-! ## One visit -/

namespace Visit

/-- The schema records that a visit makes, that of the body first. -/
def made (taken : List String) (visit : Visit) (id : String) : List SchemaRecord :=
  (Slot.make taken (visit.operation.bodySlot? id)).toList ++
    (Slot.make (Slot.take taken (visit.operation.bodySlot? id))
      (visit.operation.responseSlot? id)).toList

/-- The names that are taken after a visit. -/
def takeNames (taken : List String) (visit : Visit) (id : String) : List String :=
  Slot.take (Slot.take taken (visit.operation.bodySlot? id)) (visit.operation.responseSlot? id)

/-- The operation record of a visit. -/
def digested (taken : List String) (visit : Visit) (id : String) : OperationRecord :=
  visit.record id (Slot.shape taken (visit.operation.bodySlot? id))
    (Slot.shape (Slot.take taken (visit.operation.bodySlot? id))
      (visit.operation.responseSlot? id))

/-- The bodies of a visit that are described in place. -/
def inlineBodies (visit : Visit) (op : OperationRecord) : List InlineBody :=
  (InlineBody.of? visit.operation.bodySchema? op.body).toList ++
    (InlineBody.of? visit.operation.responseSchema? op.response).toList

variable {taken : List String}

theorem operations_cons (taken : List String) (visit : Visit) (id : String)
    (rest : List (Visit × String)) :
    (digest taken ((visit, id) :: rest)).operations =
      visit.digested taken id :: (digest (visit.takeNames taken id) rest).operations := rfl

theorem schemas_cons (taken : List String) (visit : Visit) (id : String)
    (rest : List (Visit × String)) :
    (digest taken ((visit, id) :: rest)).schemas =
      visit.made taken id ++ (digest (visit.takeNames taken id) rest).schemas := rfl

theorem digest_cons (taken : List String) (visit : Visit) (id : String)
    (rest : List (Visit × String)) :
    digest taken ((visit, id) :: rest) =
      ⟨visit.digested taken id :: (digest (visit.takeNames taken id) rest).operations,
        visit.made taken id ++ (digest (visit.takeNames taken id) rest).schemas⟩ := rfl

theorem takeNames_eq (taken : List String) (visit : Visit) (id : String) :
    visit.takeNames taken id = ((visit.made taken id).map SchemaRecord.name).reverse ++ taken := by
  simp only [takeNames, made, Slot.take]
  cases Slot.make taken (visit.operation.bodySlot? id) <;>
    cases Slot.make _ (visit.operation.responseSlot? id) <;> rfl

theorem nodup_takeNames (h : taken.Nodup) (visit : Visit) (id : String) :
    (visit.takeNames taken id).Nodup :=
  Slot.nodup_take (Slot.nodup_take h _) _

/-- **The records that a visit makes are those of its bodies described in place.** -/
theorem forall₂_made (taken : List String) (visit : Visit) (id : String) :
    List.Forall₂ InlineBody.HasRecord (visit.inlineBodies (visit.digested taken id))
      (visit.made taken id) :=
  List.rel_append (InlineBody.forall₂_make taken id "Body" visit.operation.bodySchema?)
    (InlineBody.forall₂_make _ id "Response" visit.operation.responseSchema?)

/-! ## A run over the visits -/

/-- **The names made by a run** are new and different. -/
theorem nodup_names : ∀ {taken : List String} (visits : List (Visit × String)), taken.Nodup →
    (((digest taken visits).schemas.map SchemaRecord.name).reverse ++ taken).Nodup
  | _, [], h => h
  | taken, (visit, id) :: rest, h => by
    rw [schemas_cons, List.map_append, List.reverse_append, List.append_assoc, ← takeNames_eq]
    exact nodup_names rest (nodup_takeNames h visit id)

/-- **The records made by a run** are those of the bodies described in place. -/
theorem forall₂_schemas (taken : List String) : ∀ visits : List (Visit × String),
    List.Forall₂ InlineBody.HasRecord
      (((visits.map Prod.fst).zip (digest taken visits).operations).flatMap fun pair =>
        pair.1.inlineBodies pair.2)
      (digest taken visits).schemas
  | [] => .nil
  | (visit, id) :: rest => by
    rw [operations_cons, schemas_cons, List.map_cons, List.zip_cons_cons, List.flatMap_cons]
    exact List.rel_append (forall₂_made taken visit id) (forall₂_schemas _ rest)

end Visit

/-! ## Schema records in a digest -/

namespace Document
variable (document : Document)

/-- The bodies of a document that are described in place, in visiting order, the body
    of an operation before its response. -/
def inlineBodies : List InlineBody :=
  (document.visits.zip document.digest.operations).flatMap fun pair =>
    pair.1.inlineBodies pair.2

/-- The schema records that are made for bodies described in place. -/
def madeSchemas : List SchemaRecord :=
  (Visit.digest document.schemas.keys (document.visits.zip document.operationIds)).schemas

theorem digest_schemas :
    document.digest.schemas = document.tableRecords ++ document.madeSchemas := rfl

theorem names_tableRecords :
    document.tableRecords.map SchemaRecord.name = document.schemas.keys := by
  rw [tableRecords, List.map_map]; rfl

/-- **No two schema records share a name.** -/
theorem nodup_schemaNames : (document.digest.schemas.map SchemaRecord.name).Nodup := by
  have hnames := Visit.nodup_names (document.visits.zip document.operationIds)
    document.schemas.nodup_keys
  rw [digest_schemas, List.map_append, names_tableRecords, List.nodup_append_comm]
  rw [List.nodup_append] at hnames ⊢
  obtain ⟨hmade, htable, hdisjoint⟩ := hnames
  exact ⟨List.nodup_reverse.1 hmade, htable, fun a ha => hdisjoint a (List.mem_reverse.2 ha)⟩

theorem forall₂_madeSchemas :
    List.Forall₂ InlineBody.HasRecord document.inlineBodies document.madeSchemas := by
  have hlen := Nat.le_of_eq document.length_operationIds.symm
  have := Visit.forall₂_schemas document.schemas.keys (document.visits.zip document.operationIds)
  rwa [List.map_fst_zip hlen] at this

/-- **The schema records of a digest**: those of the schema table, then one for each
    body described in place, under the name that its operation's record holds.  Names
    are unique, so every record is found by its name. -/
theorem schemas_eq_table_append_inline :
    document.digest.operations.map OperationRecord.place = document.visits.map Visit.place ∧
      (∃ made, document.digest.schemas =
          (document.schemas.entries.map fun entry => entry.2.record entry.1) ++ made ∧
        List.Forall₂ InlineBody.HasRecord document.inlineBodies made) ∧
      (document.digest.schemas.map SchemaRecord.name).Nodup ∧
      ∀ record ∈ document.digest.schemas, document.digest.schema? record.name = some record :=
  ⟨document.places_operations, ⟨_, rfl, document.forall₂_madeSchemas⟩,
    document.nodup_schemaNames, find?_key_of_nodup SchemaRecord.name document.nodup_schemaNames⟩

end Document
end ApiDigest
