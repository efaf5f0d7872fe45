/-
  The identifiers of the operations.

  The walk threads the identifiers that are taken: at first all those that the
  document declares, then also those that were inferred.  An inferred identifier
  is therefore the first free candidate, and differs from all others; declared
  ones stay as they are, so two operations that declare the same one share it.

  * `Visit.takeIds` are the identifiers that are taken after some visits;
  * `Visit.mem_ids`: an identifier is declared or was not taken, and
    `Visit.nodup_ids`: a run repeats none that is not declared twice;
  * at the end stand the identifier at every visit of a document, and when
    identifiers are unique.
-/
import ApiDigest.Document.Reading
import ApiDigest.Proofs.FreeNames
import ApiDigest.Proofs.Walk

namespace ApiDigest

namespace Visit

/-! ## One step of the walk -/

/-- The identifier that a visit gets. -/
def givenId (taken : List String) (visit : Visit) : String :=
  visit.operation.explicitId?.getD
    (Naming.freeName taken (OperationId.infer visit.method visit.path))

/-- The identifiers that are taken after a visit. -/
def takeId (taken : List String) (visit : Visit) : List String :=
  if visit.operation.explicitId?.isSome then taken else visit.givenId taken :: taken

/-- The identifiers that are taken after some visits. -/
def takeIds (taken : List String) (visits : List Visit) : List String :=
  visits.foldl takeId taken

/-- The identifiers that some visits declare. -/
def declaredIds (visits : List Visit) : List String :=
  visits.filterMap fun visit => visit.operation.explicitId?

variable {taken : List String} {visit : Visit} {visits rest : List Visit} {id : String}

theorem ids_cons (taken : List String) (visit : Visit) (rest : List Visit) :
    ids taken (visit :: rest) = visit.givenId taken :: ids (visit.takeId taken) rest := by
  cases h : visit.operation.explicitId? <;> simp [ids, givenId, takeId, h]

theorem givenId_of_explicit (h : visit.operation.explicitId? = some id) :
    visit.givenId taken = id := by
  simp [givenId, h]

theorem givenId_of_inferred (h : visit.operation.explicitId? = none) :
    visit.givenId taken = Naming.freeName taken (OperationId.infer visit.method visit.path) := by
  simp [givenId, h]

theorem takeId_of_explicit (h : visit.operation.explicitId? = some id) :
    visit.takeId taken = taken := by
  simp [takeId, h]

theorem takeId_of_inferred (h : visit.operation.explicitId? = none) :
    visit.takeId taken = visit.givenId taken :: taken := by
  simp [takeId, h]

theorem declaredIds_of_explicit (h : visit.operation.explicitId? = some id) :
    declaredIds (visit :: rest) = id :: declaredIds rest := by
  simp [declaredIds, h]

theorem declaredIds_of_inferred (h : visit.operation.explicitId? = none) :
    declaredIds (visit :: rest) = declaredIds rest := by
  simp [declaredIds, h]

theorem declaredIds_tail_subset : declaredIds rest ⊆ declaredIds (visit :: rest) := by
  cases he : visit.operation.explicitId? with
  | some id => rw [declaredIds_of_explicit he]; exact List.subset_cons_self _ _
  | none => rw [declaredIds_of_inferred he]; exact List.Subset.refl _

/-- If declared identifiers are taken, a visit adds just its identifier. -/
theorem mem_takeId (h : ∀ id, visit.operation.explicitId? = some id → id ∈ taken) (x : String) :
    x ∈ visit.takeId taken ↔ x ∈ taken ∨ x = visit.givenId taken := by
  cases he : visit.operation.explicitId? with
  | some id =>
    rw [takeId_of_explicit he, givenId_of_explicit he]
    exact (or_iff_left_of_imp fun e => e ▸ h id he).symm
  | none => rw [takeId_of_inferred he, List.mem_cons, or_comm]

/-! ## A run of the walk -/

theorem ids_append (taken : List String) (visits rest : List Visit) :
    ids taken (visits ++ rest) = ids taken visits ++ ids (takeIds taken visits) rest := by
  induction visits generalizing taken with
  | nil => rfl
  | cons visit visits ih => rw [List.cons_append, ids_cons, ih, ids_cons]; rfl

/-- **What is taken after a run**: what was, and the identifiers given in it. -/
theorem mem_takeIds (h : declaredIds visits ⊆ taken) (x : String) :
    x ∈ takeIds taken visits ↔ x ∈ taken ∨ x ∈ ids taken visits := by
  induction visits generalizing taken with
  | nil => simp [takeIds, ids]
  | cons visit rest ih =>
    have hv : ∀ id, visit.operation.explicitId? = some id → id ∈ taken := fun id he =>
      h (by rw [declaredIds_of_explicit he]; exact List.mem_cons_self)
    have hrest : declaredIds rest ⊆ visit.takeId taken := fun y hy =>
      (mem_takeId hv y).2 (Or.inl (h (declaredIds_tail_subset hy)))
    rw [show takeIds taken (visit :: rest) = takeIds (visit.takeId taken) rest from rfl,
      ih hrest, mem_takeId hv, ids_cons, List.mem_cons, or_assoc]

/-- Every identifier is declared, or was not taken. -/
theorem mem_ids : ∀ {taken : List String} {visits : List Visit} {id : String},
    id ∈ ids taken visits → id ∈ declaredIds visits ∨ id ∉ taken
  | _, [], _, h => absurd h List.not_mem_nil
  | taken, visit :: rest, x, h => by
    rw [ids_cons, List.mem_cons] at h
    cases he : visit.operation.explicitId? with
    | some id =>
      rw [givenId_of_explicit he, takeId_of_explicit he] at h
      rw [declaredIds_of_explicit he, List.mem_cons, or_assoc]
      exact h.imp_right mem_ids
    | none =>
      rw [givenId_of_inferred he, takeId_of_inferred he] at h
      rw [declaredIds_of_inferred he]
      rcases h with rfl | h
      · exact Or.inr (Naming.freeName_notMem _ _)
      · exact (mem_ids h).imp_right fun hx => fun ht => hx (List.mem_cons_of_mem _ ht)

/-- The declared identifiers are among those given, in the same order. -/
theorem declaredIds_sublist (taken : List String) (visits : List Visit) :
    (declaredIds visits).Sublist (ids taken visits) := by
  induction visits generalizing taken with
  | nil => exact List.Sublist.slnil
  | cons visit rest ih =>
    rw [ids_cons]
    cases he : visit.operation.explicitId? with
    | some id =>
      rw [declaredIds_of_explicit he, givenId_of_explicit he]
      exact (ih _).cons_cons id
    | none =>
      rw [declaredIds_of_inferred he]
      exact (ih _).cons _

/-- No later visit gets an identifier that was inferred. -/
theorem givenId_notMem_ids (he : visit.operation.explicitId? = none)
    (hsub : declaredIds rest ⊆ taken) :
    visit.givenId taken ∉ ids (visit.takeId taken) rest := by
  intro hin
  rcases mem_ids hin with hdeclared | hnew
  · rw [givenId_of_inferred he] at hdeclared
    exact Naming.freeName_notMem _ _ (hsub hdeclared)
  · rw [takeId_of_inferred he] at hnew
    exact hnew List.mem_cons_self

/-- **A run repeats no identifier** unless the visits declare one twice. -/
theorem nodup_ids : ∀ {taken : List String} {visits : List Visit},
    declaredIds visits ⊆ taken → (declaredIds visits).Nodup → (ids taken visits).Nodup
  | _, [], _, _ => List.nodup_nil
  | taken, visit :: rest, hsub, hnd => by
    rw [ids_cons, List.nodup_cons]
    cases he : visit.operation.explicitId? with
    | some id =>
      rw [declaredIds_of_explicit he] at hsub hnd
      rw [givenId_of_explicit he, takeId_of_explicit he]
      obtain ⟨hid, hrest⟩ := List.cons_subset.1 hsub
      obtain ⟨hnotin, hnd⟩ := List.nodup_cons.1 hnd
      exact ⟨fun h => (mem_ids h).elim hnotin fun h => h hid, nodup_ids hrest hnd⟩
    | none =>
      rw [declaredIds_of_inferred he] at hsub hnd
      have hnotin := givenId_notMem_ids he hsub
      rw [takeId_of_inferred he] at hnotin ⊢
      exact ⟨hnotin, nodup_ids (List.Subset.trans hsub (List.subset_cons_self _ _)) hnd⟩

end Visit

/-! ## Identifiers in a digest -/

namespace Document
variable {document : Document}

/-- The operation record of a visit, between those of the visits before and after
    it, and the identifiers of all of them. -/
theorem split_operations {before after : List Visit} {visit : Visit}
    (h : document.visits = before ++ visit :: after) :
    ∃ opsBefore op opsAfter, document.digest.operations = opsBefore ++ op :: opsAfter ∧
      opsBefore.map OperationRecord.place = before.map Visit.place ∧
      op.place = visit.place ∧
      opsAfter.map OperationRecord.place = after.map Visit.place ∧
      opsBefore.map OperationRecord.id = Visit.ids document.explicitIds before ∧
      op.id = visit.givenId (Visit.takeIds document.explicitIds before) ∧
      opsAfter.map OperationRecord.id =
        Visit.ids (visit.takeId (Visit.takeIds document.explicitIds before)) after := by
  have hplaces := document.places_operations
  have hids := document.ids_operations
  rw [h, List.map_append, List.map_cons] at hplaces
  rw [operationIds, h, Visit.ids_append, Visit.ids_cons] at hids
  obtain ⟨opsBefore, opsRest, hops, hbefore, hrest⟩ := List.map_eq_append_iff.1 hplaces
  obtain ⟨op, opsAfter, rfl, hop, hafter⟩ := List.map_eq_cons_iff.1 hrest
  have hlen : (opsBefore.map OperationRecord.id).length =
      (Visit.ids document.explicitIds before).length := by
    rw [Visit.length_ids, List.length_map]
    simpa using congrArg List.length hbefore
  rw [hops, List.map_append] at hids
  obtain ⟨hidBefore, hidRest⟩ := List.append_inj hids hlen
  obtain ⟨hid, hidAfter⟩ := List.cons.inj hidRest
  exact ⟨opsBefore, op, opsAfter, hops, hbefore, hop, hafter, hidBefore, hid, hidAfter⟩

/-- **The identifier of every operation.**  One that is declared stays as it is.  Any
    other is the first free candidate, given the identifiers that are declared
    anywhere and those of the operations before it, and no other operation has it. -/
theorem id_declared_or_first_free {before after : List Visit} {visit : Visit}
    (h : document.visits = before ++ visit :: after) :
    ∃ opsBefore op opsAfter, document.digest.operations = opsBefore ++ op :: opsAfter ∧
      opsBefore.map OperationRecord.place = before.map Visit.place ∧
      op.place = visit.place ∧
      opsAfter.map OperationRecord.place = after.map Visit.place ∧
      (∀ id, visit.operation.explicitId? = some id → op.id = id) ∧
      (visit.operation.explicitId? = none →
        Naming.IsFirstFree (document.explicitIds ++ opsBefore.map OperationRecord.id)
          (OperationId.infer visit.method visit.path) op.id ∧
        op.id ∉ (opsBefore ++ opsAfter).map OperationRecord.id) := by
  obtain ⟨opsBefore, op, opsAfter, hops, hbefore, hop, hafter, hidBefore, hid, hidAfter⟩ :=
    split_operations h
  refine ⟨opsBefore, op, opsAfter, hops, hbefore, hop, hafter,
    fun id he => hid.trans (Visit.givenId_of_explicit he), fun he => ?_⟩
  have hdeclared : document.explicitIds = Visit.declaredIds before ++ Visit.declaredIds after := by
    rw [explicitIds, h]; simp [Visit.declaredIds, he]
  -- the identifiers taken at the visit are the declared ones and those given before
  have htaken : ∀ x, x ∈ Visit.takeIds document.explicitIds before ↔
      x ∈ document.explicitIds ++ opsBefore.map OperationRecord.id := by
    intro x
    have hbefore : Visit.declaredIds before ⊆ document.explicitIds :=
      hdeclared ▸ List.subset_append_left _ _
    rw [Visit.mem_takeIds hbefore, List.mem_append, hidBefore]
  have hafterTaken : Visit.declaredIds after ⊆ Visit.takeIds document.explicitIds before :=
    fun x hx => (htaken x).2 (List.mem_append_left _ (hdeclared ▸ List.mem_append_right _ hx))
  have hfirst := (Naming.freeName_isFirstFree (Visit.takeIds document.explicitIds before)
    (OperationId.infer visit.method visit.path)).congr htaken
  rw [← Visit.givenId_of_inferred he, ← hid] at hfirst
  refine ⟨hfirst, ?_⟩
  obtain ⟨_, _, hfree, _⟩ := hfirst
  rw [List.map_append, List.mem_append, hidAfter]
  rintro (hin | hin)
  · exact hfree (List.mem_append_right _ hin)
  · exact Visit.givenId_notMem_ids he hafterTaken (hid ▸ hin)

/-- Three operations: the first and the last suggest the identifier that the one
    between them declares. -/
def users : Document := ofFields [("paths", .obj [
  ("/users", .obj [("post", .obj [])]),
  ("/people", .obj [("post", .obj [("operationId", .str "postUsers")])]),
  ("/v1/users", .obj [("post", .obj [])])])]

/-- The last operation of `users`. -/
def lastUsers : Visit := ⟨"/v1/users", .post, ⟨none, [], [], none, Table.empty⟩, []⟩

theorem id_first_free_lastUsers :
    users.visits = users.visits.take 2 ++ lastUsers :: [] ∧
      lastUsers.operation.explicitId? = none ∧
      users.digest.operations.map OperationRecord.id =
        ["postUsers2", "postUsers", "postUsers3"] ∧
      ∃ opsBefore op, users.digest.operations = opsBefore ++ [op] ∧
        Naming.IsFirstFree (users.explicitIds ++ opsBefore.map OperationRecord.id)
          (OperationId.infer .post "/v1/users") op.id ∧
        op.id ∉ opsBefore.map OperationRecord.id := by
  have hvisits : users.visits = users.visits.take 2 ++ lastUsers :: [] := rfl
  have hnone : lastUsers.operation.explicitId? = none := rfl
  obtain ⟨opsBefore, op, opsAfter, hops, -, -, hafter, -, hinferred⟩ :=
    id_declared_or_first_free hvisits
  obtain rfl : opsAfter = [] := List.map_eq_nil_iff.1 hafter
  obtain ⟨hfirst, hother⟩ := hinferred hnone
  rw [List.append_nil] at hother
  exact ⟨hvisits, hnone, by decide, opsBefore, op, hops, hfirst, hother⟩

/-- The declared identifiers are unique exactly if all identifiers are. -/
theorem nodup_operationIds_iff :
    document.operationIds.Nodup ↔ document.explicitIds.Nodup :=
  ⟨fun h => h.sublist (Visit.declaredIds_sublist _ _), Visit.nodup_ids (List.Subset.refl _)⟩

/-- **Identifiers are unique exactly if the declared ones are**, and exactly then every
    operation is found by its identifier. -/
theorem nodup_ids_iff (document : Document) :
    ((document.digest.operations.map OperationRecord.id).Nodup ↔ document.explicitIds.Nodup) ∧
      ((∀ op ∈ document.digest.operations, document.digest.operation? op.id = some op) ↔
        document.explicitIds.Nodup) := by
  rw [ids_operations, ← nodup_operationIds_iff, ← ids_operations]
  refine ⟨Iff.rfl, fun h => ?_, find?_key_of_nodup OperationRecord.id⟩
  refine List.Nodup.map_on (fun op hop op' hop' heq => ?_) document.nodup_operations
  have hfound := h op hop
  rw [heq, h op' hop'] at hfound
  exact (Option.some.inj hfound).symm

/-- Two operations that declare the same identifier. -/
def saves : Document := ofFields [("paths", .obj [
  ("/a", .obj [("post", .obj [("operationId", .str "save")])]),
  ("/b", .obj [("post", .obj [("operationId", .str "save")])])])]

theorem shared_id_saves :
    ¬ (saves.digest.operations.map OperationRecord.id).Nodup ∧
      ∃ op ∈ saves.digest.operations, saves.digest.operation? op.id ≠ some op := by
  decide

end Document
end ApiDigest
