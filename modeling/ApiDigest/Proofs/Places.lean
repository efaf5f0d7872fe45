/-
  The record of the operation at a place.

  What a digest says about the bodies of an operation depends on the schema names
  that are taken when the walk comes to it: those of the schema table, and those
  that were made before.

  * `Visit.namesAfter` are the names that are taken after some visits, and
    `Document.takenAt` those that are taken at a place;
  * `Document.bodyShape` and `Document.responseShape` are what the walk says at a
    place about a body with a given schema;
  * `Document.record_at`: the record at the place of a visit.
-/
import ApiDigest.Proofs.Slots

namespace ApiDigest

/-- The record of the operation of a method at a path. -/
def Digest.operationAt? (digest : Digest) (path : String) (m : Method) : Option OperationRecord :=
  digest.operations.find? fun op => op.place = (path, m)

namespace Visit

variable {taken : List String}

/-! ## The record of a visit -/

section
variable (visit : Visit) (id : String) (body response : Option ShapeRef)

theorem pathParams_record : (visit.record id body response).pathParams =
    ParamRecord.at .path (mergeParameters visit.shared visit.operation.parameters) := rfl

theorem queryParams_record : (visit.record id body response).queryParams =
    ParamRecord.at .query (mergeParameters visit.shared visit.operation.parameters) := rfl

theorem body_record : (visit.record id body response).body = body := rfl

theorem response_record : (visit.record id body response).response = response := rfl

end

/-! ## Runs in two parts -/

/-- The schema names that are taken after some visits. -/
def namesAfter (taken : List String) (visits : List (Visit × String)) : List String :=
  visits.foldl (fun taken visit => visit.1.takeNames taken visit.2) taken

theorem digest_append (taken : List String) (before after : List (Visit × String)) :
    (digest taken (before ++ after)).operations =
        (digest taken before).operations ++ (digest (namesAfter taken before) after).operations ∧
      (digest taken (before ++ after)).schemas =
        (digest taken before).schemas ++ (digest (namesAfter taken before) after).schemas := by
  induction before generalizing taken with
  | nil => exact ⟨rfl, rfl⟩
  | cons visit rest ih =>
    obtain ⟨visit, id⟩ := visit
    obtain ⟨hoperations, hschemas⟩ := ih (visit.takeNames taken id)
    constructor
    · rw [List.cons_append, operations_cons, operations_cons, hoperations]; rfl
    · rw [List.cons_append, schemas_cons, schemas_cons, hschemas, List.append_assoc]; rfl

end Visit

/-- A list is cut before the element with a key, wherever keys differ. -/
theorem takeWhile_key_of_nodup {α β : Type} [DecidableEq β] (key : α → β) {l : List α}
    (h : (l.map key).Nodup) :
    ∀ a ∈ l, ∃ after, l = (l.takeWhile fun b => key b ≠ key a) ++ a :: after := by
  induction l with
  | nil => simp
  | cons b rest ih =>
    rw [List.map_cons, List.nodup_cons] at h
    intro a ha
    rcases List.mem_cons.1 ha with rfl | ha
    · exact ⟨rest, by simp⟩
    · have hne : key b ≠ key a := fun e => h.1 (e ▸ List.mem_map_of_mem ha)
      obtain ⟨after, hafter⟩ := ih h.2 a ha
      refine ⟨after, ?_⟩
      rw [List.takeWhile_cons_of_pos (by simpa using hne), List.cons_append, ← hafter]

/-! ## The walk at a place -/

namespace Document

variable (document : Document) (path : String) (m : Method)

/-- The visits with their identifiers. -/
def identified : List (Visit × String) := document.visits.zip document.operationIds

/-- The visits before a place. -/
def visitsBefore : List (Visit × String) :=
  document.identified.takeWhile fun visit => visit.1.place ≠ (path, m)

/-- The schema names that are taken when the walk comes to a place. -/
def takenAt : List String := Visit.namesAfter document.schemas.keys (document.visitsBefore path m)

/-- The schema names that are taken when the walk comes to the response at a place:
    also the one that was made for the body there. -/
def takenAtResponse : List String :=
  match document.identified.find? fun visit => visit.1.place = (path, m) with
  | some (visit, id) => Slot.take (document.takenAt path m) (visit.operation.bodySlot? id)
  | none => document.takenAt path m

/-- What the walk says at a place about a request body with a schema. -/
def bodyShape (id : String) (schema : Option Schema) : Option ShapeRef :=
  Slot.shape (document.takenAt path m) (Slot.of? id "Body" schema)

/-- What the walk says at a place about a response with a schema. -/
def responseShape (id : String) (schema : Option Schema) : Option ShapeRef :=
  Slot.shape (document.takenAtResponse path m) (Slot.of? id "Response" schema)

variable {document path m}

theorem map_fst_identified : document.identified.map Prod.fst = document.visits :=
  List.map_fst_zip (Nat.le_of_eq document.length_operationIds.symm)

theorem nodup_places_identified :
    (document.identified.map fun visit => visit.1.place).Nodup := by
  have hplaces := document.nodup_places
  rwa [← map_fst_identified, List.map_map] at hplaces

/-- **The record at the place of a visit**, and the schema records that are made
    there. -/
theorem record_at {visit : Visit} (h : visit ∈ document.visits) :
    ∃ record, document.digest.operationAt? visit.path visit.method = some record ∧
      record = visit.record record.id
        (document.bodyShape visit.path visit.method record.id visit.operation.bodySchema?)
        (document.responseShape visit.path visit.method record.id
          visit.operation.responseSchema?) ∧
      visit.made (document.takenAt visit.path visit.method) record.id ⊆
        document.digest.schemas := by
  rw [← map_fst_identified] at h
  obtain ⟨⟨visit, id⟩, hmem, rfl⟩ := List.mem_map.1 h
  have hfind : (document.identified.find? fun v => v.1.place = (visit.path, visit.method)) =
      some (visit, id) :=
    find?_key_of_nodup (fun v : Visit × String => v.1.place) nodup_places_identified _ hmem
  obtain ⟨after, hsplit⟩ := takeWhile_key_of_nodup (fun v : Visit × String => v.1.place)
    nodup_places_identified _ hmem
  change document.identified = document.visitsBefore visit.path visit.method ++ _ at hsplit
  obtain ⟨hoperations, hschemas⟩ := Visit.digest_append document.schemas.keys
    (document.visitsBefore visit.path visit.method) ((visit, id) :: after)
  rw [← hsplit] at hoperations hschemas
  have hrecord : visit.digested (document.takenAt visit.path visit.method) id =
      visit.record id
        (document.bodyShape visit.path visit.method id visit.operation.bodySchema?)
        (document.responseShape visit.path visit.method id visit.operation.responseSchema?) := by
    rw [responseShape, takenAtResponse, hfind]; rfl
  refine ⟨visit.digested (document.takenAt visit.path visit.method) id, ?_, hrecord, ?_⟩
  · have hnd : (document.digest.operations.map OperationRecord.place).Nodup := by
      rw [places_operations]; exact document.nodup_places
    have hop : visit.digested (document.takenAt visit.path visit.method) id ∈
        document.digest.operations := by
      change _ ∈ (Visit.digest document.schemas.keys document.identified).operations
      rw [hoperations, Visit.operations_cons]
      exact List.mem_append_right _ List.mem_cons_self
    exact find?_key_of_nodup OperationRecord.place hnd _ hop
  · intro record hrecord
    refine List.mem_append_right _ ?_
    change _ ∈ (Visit.digest document.schemas.keys document.identified).schemas
    rw [hschemas, Visit.schemas_cons]
    exact List.mem_append_right _ (List.mem_append_left _ hrecord)

end Document
end ApiDigest
