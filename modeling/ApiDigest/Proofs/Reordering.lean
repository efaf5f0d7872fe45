/-
  The order of the paths.

  As long as no two wishes meet, each name that the walk wishes for is still free when
  its turn comes.  What it gives at a place then depends on the operation there alone,
  and the order of the paths is seen only in the order of the records.

  * `Visit.baseId` and `Visit.wishes` are the names that a visit wishes for, and
    `Document.ClashFree` says that no two wishes of a document meet;
  * `Visit.ids_of_free` and `Visit.digest_of_free`: in a run whose wishes do not meet,
    every wish is granted;
  * `Document.digest_reordered`: without clashes the order of the paths does not matter.
-/
import ApiDigest.Document.Reading
import ApiDigest.Proofs.OperationIds
import ApiDigest.Proofs.Places

namespace ApiDigest

/-! ## Wishes -/

/-- The names that an optional slot wishes for: one if it gets a record of its own. -/
def Slot.wishes (slot : Option Slot) : List String :=
  ((slot.filter Slot.isInline).map Slot.wish).toList

namespace Visit

/-- The identifier that a visit wishes for. -/
def baseId (visit : Visit) : String :=
  visit.operation.explicitId?.getD (OperationId.infer visit.method visit.path)

/-- The names that a visit wishes for, for the schema records of its body and its response. -/
def wishes (visit : Visit) (id : String) : List String :=
  Slot.wishes (visit.operation.bodySlot? id) ++ Slot.wishes (visit.operation.responseSlot? id)

/-- The operation record of a visit whose wishes are granted. -/
def granted (visit : Visit) (id : String) : OperationRecord :=
  visit.record id (Slot.shape [] (visit.operation.bodySlot? id))
    (Slot.shape [] (visit.operation.responseSlot? id))

/-- The schema records of a visit whose wishes are granted. -/
def grantedSchemas (visit : Visit) (id : String) : List SchemaRecord :=
  (Slot.make [] (visit.operation.bodySlot? id)).toList ++
    (Slot.make [] (visit.operation.responseSlot? id)).toList

end Visit

/-! ## One slot -/

namespace Slot

variable {taken : List String} {slot : Option Slot}

theorem make_of_free (h : (wishes slot ++ taken).Nodup) : make taken slot = make [] slot := by
  cases slot with
  | none => rfl
  | some slot =>
    cases hi : slot.isInline with
    | false => rw [make_of_not_inline hi, make_of_not_inline hi]
    | true =>
      have hwish : wishes (some slot) = [slot.wish] := by simp [wishes, Option.filter, hi]
      rw [hwish, List.singleton_append, List.nodup_cons] at h
      rw [make_of_inline hi, make_of_inline hi, Naming.freeName_of_notMem h.1,
        Naming.freeName_of_notMem List.not_mem_nil]

theorem shape_of_free (h : (wishes slot ++ taken).Nodup) : shape taken slot = shape [] slot := by
  rw [shape, shape, make_of_free h]

theorem take_of_free (h : (wishes slot ++ taken).Nodup) : take taken slot = wishes slot ++ taken := by
  rw [take, make_of_free h]
  cases slot with
  | none => rfl
  | some slot =>
    cases hi : slot.isInline with
    | false => rw [make_of_not_inline hi]; simp [wishes, Option.filter, hi]
    | true =>
      rw [make_of_inline hi, Naming.freeName_of_notMem List.not_mem_nil]
      simp [wishes, Option.filter, hi, Schema.record]

end Slot

/-! ## One visit -/

namespace Visit

section
variable {taken : List String} {visit : Visit} {id : String}
  (h : (visit.wishes id ++ taken).Nodup)
include h

theorem nodup_body : (Slot.wishes (visit.operation.bodySlot? id) ++ taken).Nodup :=
  h.sublist (List.Sublist.append (List.sublist_append_left _ _) (List.Sublist.refl taken))

theorem nodup_response : (Slot.wishes (visit.operation.responseSlot? id) ++
    (Slot.wishes (visit.operation.bodySlot? id) ++ taken)).Nodup := by
  rw [wishes] at h
  rw [← List.append_assoc]
  exact (List.perm_append_comm.append_right taken).nodup_iff.1 h

theorem digested_of_free : visit.digested taken id = visit.granted id := by
  rw [digested, Slot.shape_of_free (nodup_body h), Slot.take_of_free (nodup_body h),
    Slot.shape_of_free (nodup_response h), granted]

theorem made_of_free : visit.made taken id = visit.grantedSchemas id := by
  rw [made, Slot.take_of_free (nodup_body h), Slot.make_of_free (nodup_body h),
    Slot.make_of_free (nodup_response h), grantedSchemas]

theorem takeNames_perm_of_free : (visit.takeNames taken id).Perm (visit.wishes id ++ taken) := by
  rw [takeNames, Slot.take_of_free (nodup_body h), Slot.take_of_free (nodup_response h), wishes,
    ← List.append_assoc]
  exact List.perm_append_comm.append_right taken

end

/-! ## A run -/

/-- **In a run whose wishes neither meet nor are taken**, every wish is granted. -/
theorem digest_of_free : ∀ {taken : List String} {visits : List (Visit × String)},
    ((visits.flatMap fun visit => visit.1.wishes visit.2) ++ taken).Nodup →
    digest taken visits = ⟨visits.map fun visit => visit.1.granted visit.2,
      visits.flatMap fun visit => visit.1.grantedSchemas visit.2⟩
  | _, [], _ => rfl
  | taken, (visit, id) :: rest, h => by
    rw [List.flatMap_cons, List.append_assoc] at h
    set later := rest.flatMap fun visit => visit.1.wishes visit.2
    have hvisit : (visit.wishes id ++ taken).Nodup :=
      h.sublist (List.Sublist.append (List.Sublist.refl _) (List.sublist_append_right later taken))
    -- the names of this visit are taken for the later ones
    have hrest : (later ++ visit.takeNames taken id).Nodup := by
      refine ((takeNames_perm_of_free hvisit).append_left later).nodup_iff.2 ?_
      rw [← List.append_assoc] at h ⊢
      exact (List.perm_append_comm.append_right taken).nodup_iff.1 h
    rw [digest_cons, digested_of_free hvisit, made_of_free hvisit, digest_of_free hrest]
    rfl

/-- **In a run whose identifiers neither meet nor are taken**, every visit gets the one
    that it wishes for. -/
theorem ids_of_free : ∀ {taken : List String} {visits : List Visit},
    (visits.map baseId).Nodup →
    (∀ visit ∈ visits, visit.operation.explicitId? = none → visit.baseId ∉ taken) →
    ids taken visits = visits.map baseId
  | _, [], _, _ => rfl
  | taken, visit :: rest, hnd, hfree => by
    rw [List.map_cons, List.nodup_cons] at hnd
    obtain ⟨hvisit, hrest⟩ := List.forall_mem_cons.1 hfree
    rw [ids_cons, List.map_cons]
    cases he : visit.operation.explicitId? with
    | some id =>
      have hbase : visit.baseId = id := by rw [baseId, he]; rfl
      rw [givenId_of_explicit he, takeId_of_explicit he, hbase, ids_of_free hnd.2 hrest]
    | none =>
      have hbase : visit.givenId taken = visit.baseId := by
        have hfree := hvisit he
        rw [baseId, he] at hfree ⊢
        exact (givenId_of_inferred he).trans (Naming.freeName_of_notMem hfree)
      rw [takeId_of_inferred he, hbase]
      refine congrArg _ (ids_of_free hnd.2 fun other hother hinferred hmem => ?_)
      rcases List.mem_cons.1 hmem with heq | hmem
      · exact hnd.1 (heq ▸ List.mem_map_of_mem hother)
      · exact hrest other hother hinferred hmem

end Visit

/-! ## Documents without clashes -/

namespace Document

/-- The identifiers that the operations of a document wish for. -/
def baseIds (document : Document) : List String := document.visits.map Visit.baseId

/-- The names that the bodies and responses of a document wish for. -/
def baseNames (document : Document) : List String :=
  document.visits.flatMap fun visit => visit.wishes visit.baseId

/-- No two wishes of a document meet. -/
structure ClashFree (document : Document) : Prop where
  ids : document.baseIds.Nodup
  names : document.baseNames.Nodup
  /-- No name is that of an entry of the schema table. -/
  untaken : ∀ name ∈ document.baseNames, name ∉ document.schemas.keys

variable {d e : Document}

theorem operationIds_of_clashFree (h : d.ClashFree) : d.operationIds = d.baseIds := by
  refine Visit.ids_of_free h.ids fun visit hvisit hinferred hmem => ?_
  -- a visit that declares the identifier would wish for it as well
  obtain ⟨other, hother, hid⟩ := List.mem_filterMap.1 hmem
  have hbase : other.baseId = visit.baseId := by rw [Visit.baseId, hid]; rfl
  obtain rfl := List.inj_on_of_nodup_map h.ids hother hvisit hbase
  rw [hinferred] at hid
  exact Option.some_ne_none _ hid.symm

theorem identified_of_clashFree (h : d.ClashFree) :
    d.identified = d.visits.map fun visit => (visit, visit.baseId) := by
  rw [identified, operationIds_of_clashFree h, baseIds]
  have hzip : (d.visits.map fun visit => visit).zip (d.visits.map Visit.baseId) =
      d.visits.map fun visit => (visit, visit.baseId) := List.zip_map'
  rwa [List.map_id'] at hzip

theorem digest_of_clashFree (h : d.ClashFree) :
    d.digest.operations = (d.visits.map fun visit => visit.granted visit.baseId) ∧
      d.madeSchemas = d.visits.flatMap fun visit => visit.grantedSchemas visit.baseId := by
  have hnames : ((d.identified.flatMap fun visit => visit.1.wishes visit.2) ++
      d.schemas.keys).Nodup := by
    rw [identified_of_clashFree h, List.flatMap_map]
    exact List.nodup_append.2 ⟨h.names, d.schemas.nodup_keys,
      fun a ha b hb e => h.untaken a ha (e ▸ hb)⟩
  have hrun := Visit.digest_of_free hnames
  rw [identified_of_clashFree h, List.map_map, List.flatMap_map, ← identified_of_clashFree h] at hrun
  exact ⟨congrArg Digest.operations hrun, congrArg Digest.schemas hrun⟩

/-! ## Another order of the paths -/

theorem visits_perm (hpaths : d.paths.entries.Perm e.paths.entries) : d.visits.Perm e.visits :=
  hpaths.flatMap_right _

theorem ClashFree.perm (h : d.ClashFree) (hschemas : d.schemas = e.schemas)
    (hpaths : d.paths.entries.Perm e.paths.entries) : e.ClashFree := by
  have hids : d.baseIds.Perm e.baseIds := (visits_perm hpaths).map _
  have hnames : d.baseNames.Perm e.baseNames := (visits_perm hpaths).flatMap_right _
  exact ⟨hids.nodup_iff.1 h.ids, hnames.nodup_iff.1 h.names, fun name hname =>
    hschemas ▸ h.untaken name (hnames.mem_iff.2 hname)⟩

/-- **Without clashes the order of the paths does not matter.**  Of two documents with the
    same schema table and the same paths in different orders, if in one of them no two
    wishes meet, both say the same of every operation, and the records of the table
    are followed by the same records in different orders. -/
theorem digest_reordered (h : d.ClashFree) (hschemas : d.schemas = e.schemas)
    (hpaths : d.paths.entries.Perm e.paths.entries) :
    (∀ path m, d.digest.operationAt? path m = e.digest.operationAt? path m) ∧
      d.digest.operations.Perm e.digest.operations ∧
      ∃ made made', made.Perm made' ∧
        d.digest.schemas = (d.schemas.entries.map fun entry => entry.2.record entry.1) ++ made ∧
        e.digest.schemas = (d.schemas.entries.map fun entry => entry.2.record entry.1) ++ made' := by
  obtain ⟨hoperations, hmade⟩ := digest_of_clashFree h
  obtain ⟨hoperations', hmade'⟩ := digest_of_clashFree (h.perm hschemas hpaths)
  have hperm : d.digest.operations.Perm e.digest.operations := by
    rw [hoperations, hoperations']
    exact (visits_perm hpaths).map _
  have hplaces : (d.digest.operations.map OperationRecord.place).Nodup := by
    rw [places_operations]; exact d.nodup_places
  refine ⟨fun path m => find?_key_of_perm OperationRecord.place hperm hplaces (path, m), hperm,
    d.madeSchemas, e.madeSchemas, ?_, rfl, ?_⟩
  · rw [hmade, hmade']
    exact (visits_perm hpaths).flatMap_right _
  · rw [hschemas]; rfl

/-- The content of a body described in place. -/
def inPlace : Json := .obj [("content", .obj [("application/json", .obj [("schema", .obj [
  ("properties", .obj [("order", .obj [("$ref", .str "#/components/schemas/Order")])])])])])]

/-- A path with a declared identifier, and with a body and a response described in place. -/
def orderPath : String × Json := ("/orders", .obj [
  ("get", .obj [("responses", .obj [("200", inPlace)])]),
  ("post", .obj [("operationId", .str "save"), ("requestBody", inPlace),
    ("responses", .obj [("201", inPlace)])])])

/-- A path without identifiers. -/
def userPath : String × Json := ("/users", .obj [("get", .obj [("responses", .obj [
  ("default", inPlace)])])])

/-- A document with the given paths. -/
def shop (paths : List (String × Json)) : Document := ofFields [("paths", .obj paths),
  ("components", .obj [("schemas", .obj [("Order", .obj [])])])]

theorem digest_reordered_shop :
    (shop [orderPath, userPath]).ClashFree ∧
      (shop [orderPath, userPath]).paths.entries.Perm (shop [userPath, orderPath]).paths.entries ∧
      (shop [orderPath, userPath]).digest.schemas.map SchemaRecord.name =
        ["Order", "ListOrdersResponse", "SaveBody", "SaveResponse", "ListUsersResponse"] ∧
      (shop [userPath, orderPath]).digest.schemas.map SchemaRecord.name =
        ["Order", "ListUsersResponse", "ListOrdersResponse", "SaveBody", "SaveResponse"] ∧
      ((shop [orderPath, userPath]).digest.operationAt? "/orders" .post).isSome = true ∧
      ∀ path m, (shop [orderPath, userPath]).digest.operationAt? path m =
        (shop [userPath, orderPath]).digest.operationAt? path m := by
  have hfree : (shop [orderPath, userPath]).ClashFree :=
    ⟨by decide +kernel, by decide +kernel, by decide +kernel⟩
  have hpaths : (shop [orderPath, userPath]).paths.entries.Perm
      (shop [userPath, orderPath]).paths.entries := List.Perm.swap _ _ _
  have hschemas : (shop [orderPath, userPath]).schemas = (shop [userPath, orderPath]).schemas := rfl
  obtain ⟨hat, -, -⟩ := digest_reordered hfree hschemas hpaths
  exact ⟨hfree, hpaths, by decide +kernel, by decide +kernel, by decide +kernel, hat⟩

end Document
end ApiDigest
