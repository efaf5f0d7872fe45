/-
  The walk over the operations of a document.

  A digest has one operation record per visit, in visiting order, and no two
  visits stand at the same place.

  * `Visit.place` and `OperationRecord.place` say where an operation stands;
  * `Document.map_operations`: what a record has from its visit alone is listed in visiting
    order;
  * `Document.places_operations` and `Document.ids_operations` are the places and
    the identifiers of a digest's operations.
-/
import ApiDigest.Digest.Extract
import Mathlib.Data.List.Nodup

namespace ApiDigest

/-- Where an operation stands: its path and its method. -/
def Visit.place (visit : Visit) : String × Method := (visit.path, visit.method)

/-- Where the operation of a record stands. -/
def OperationRecord.place (op : OperationRecord) : String × Method := (op.path, op.method)

/-! ## Places -/

theorem PathItem.places_visits (path : String) (item : PathItem) :
    (item.visits path).map Visit.place = item.operations.map fun op => (path, op.1) := by
  simp only [PathItem.visits, List.map_map]; rfl

theorem PathItem.methods_operations (item : PathItem) :
    item.operations.map Prod.fst = Method.all.filter fun m => (item.operation m).isSome := by
  unfold PathItem.operations
  induction Method.all with
  | nil => rfl
  | cons m rest ih => cases h : item.operation m <;> simp [h, ih]

/-- The operations of a path have different methods. -/
theorem PathItem.nodup_methods (item : PathItem) : (item.operations.map Prod.fst).Nodup := by
  rw [item.methods_operations]
  exact List.Nodup.filter _ (by decide)

/-- **No two visits of a document stand at the same place.** -/
theorem Document.nodup_places (document : Document) :
    (document.visits.map Visit.place).Nodup := by
  rw [Document.visits, List.map_flatMap, List.nodup_flatMap]
  constructor
  · rintro ⟨path, item⟩ -
    rw [PathItem.places_visits]
    have := List.Nodup.map (f := fun m => (path, m)) (fun _ _ h => congrArg Prod.snd h)
      item.nodup_methods
    rwa [List.map_map] at this
  · have hkeys := document.paths.nodup_keys
    rw [Fields.keys, List.nodup_iff_pairwise_ne, List.pairwise_map] at hkeys
    refine hkeys.imp fun {p q} hne => ?_
    show List.Disjoint ((p.2.visits p.1).map Visit.place) ((q.2.visits q.1).map Visit.place)
    rw [PathItem.places_visits, PathItem.places_visits]
    intro place hp hq
    rw [List.mem_map] at hp hq
    obtain ⟨op, -, hop⟩ := hp
    obtain ⟨op', -, hop'⟩ := hq
    exact hne (Prod.mk.inj (hop.trans hop'.symm)).1

/-! ## One record per visit -/

@[simp] theorem Visit.length_ids (taken : List String) (visits : List Visit) :
    (Visit.ids taken visits).length = visits.length := by
  induction visits generalizing taken with
  | nil => rfl
  | cons visit rest ih => rw [Visit.ids]; split <;> simp [ih]

/-- What a record says about its visit alone, a run says about its visits. -/
theorem Visit.map_operations {α : Type} {f : OperationRecord → α} {g : Visit → α}
    (h : ∀ visit id body response, f (Visit.record visit id body response) = g visit)
    (taken : List String) (visits : List (Visit × String)) :
    (Visit.digest taken visits).operations.map f = (visits.map Prod.fst).map g := by
  induction visits generalizing taken with
  | nil => rfl
  | cons visit rest ih =>
    rw [Visit.digest, List.map_cons, List.map_cons, List.map_cons, ih, h]

theorem Visit.ids_digest (taken : List String) (visits : List (Visit × String)) :
    (Visit.digest taken visits).operations.map OperationRecord.id = visits.map Prod.snd := by
  induction visits generalizing taken with
  | nil => rfl
  | cons visit rest ih => rw [Visit.digest, List.map_cons, ih]; rfl

namespace Document
variable (document : Document)

@[simp] theorem length_operationIds : document.operationIds.length = document.visits.length :=
  Visit.length_ids _ _

theorem map_operations {α : Type} {f : OperationRecord → α} {g : Visit → α}
    (h : ∀ visit id body response, f (Visit.record visit id body response) = g visit) :
    document.digest.operations.map f = document.visits.map g := by
  have hlen := Nat.le_of_eq document.length_operationIds.symm
  rw [Document.digest, Visit.map_operations h, List.map_fst_zip hlen]

/-- **The operations of a digest stand where the visits do, in the same order.** -/
theorem places_operations :
    document.digest.operations.map OperationRecord.place = document.visits.map Visit.place :=
  document.map_operations fun _ _ _ _ => rfl

/-- **The identifiers of a digest's operations, in order.** -/
theorem ids_operations :
    document.digest.operations.map OperationRecord.id = document.operationIds := by
  have hlen := Nat.le_of_eq document.length_operationIds
  rw [Document.digest, Visit.ids_digest, List.map_snd_zip hlen]

theorem nodup_operations : document.digest.operations.Nodup := by
  refine List.Nodup.of_map OperationRecord.place ?_
  rw [places_operations]
  exact document.nodup_places

end Document

/-! ## Finding records -/

/-- The first element with a given key is the element itself wherever keys differ. -/
theorem find?_key_of_nodup {α β : Type} [DecidableEq β] (key : α → β) {l : List α}
    (h : (l.map key).Nodup) : ∀ a ∈ l, l.find? (fun b => key b = key a) = some a := by
  induction l with
  | nil => simp
  | cons b rest ih =>
    rw [List.map_cons, List.nodup_cons] at h
    intro a ha
    rcases List.mem_cons.1 ha with rfl | ha
    · simp
    · have hne : key b ≠ key a := fun e => h.1 (e ▸ List.mem_map_of_mem ha)
      simpa [List.find?_cons, hne] using ih h.2 a ha

/-- The order of elements with different keys is not seen. -/
theorem find?_key_of_perm {α β : Type} [DecidableEq β] (key : α → β) {l l' : List α}
    (hperm : l.Perm l') (h : (l.map key).Nodup) (k : β) :
    (l.find? fun a => key a = k) = l'.find? fun a => key a = k := by
  have h' : (l'.map key).Nodup := (hperm.map key).nodup_iff.1 h
  cases hfind : l.find? fun a => key a = k with
  | none =>
    rw [List.find?_eq_none] at hfind
    exact (List.find?_eq_none.2 fun a ha => hfind a (hperm.mem_iff.2 ha)).symm
  | some a =>
    have hkey : key a = k := by simpa using List.find?_some hfind
    have ha := List.mem_of_find?_eq_some hfind
    rw [← hkey]
    exact (find?_key_of_nodup key h' a (hperm.mem_iff.1 ha)).symm

end ApiDigest
