/-
  What a digest keeps when its document changes.

  The walk only ever asks which names are taken.  Of the schema table it sees
  nothing but the names, and what it gives at a place is decided by what stands
  before that place.

  * `Visit.digest_congr_names`: a run depends on the set of the taken names alone;
  * `Document.table_noninterference`: the content of a table entry shows in the
    entry's own record and nowhere else;
  * `Document.digest_prefix`: paths that are added at the end change no record that
    was there without them.
-/
import ApiDigest.Document.Reading
import ApiDigest.Proofs.Lookup
import ApiDigest.Proofs.OperationIds
import ApiDigest.Proofs.Places

namespace ApiDigest

/-! ## Runs that start from the same set of names -/

section
variable {taken taken' : List String}

namespace Slot

theorem make_congr (h : ∀ x, x ∈ taken ↔ x ∈ taken') (slot : Option Slot) :
    make taken slot = make taken' slot := by
  cases slot with
  | none => rfl
  | some slot =>
    cases hi : slot.isInline with
    | false => rw [make_of_not_inline hi, make_of_not_inline hi]
    | true => rw [make_of_inline hi, make_of_inline hi, Naming.freeName_congr h]

theorem mem_take_congr (h : ∀ x, x ∈ taken ↔ x ∈ taken') (slot : Option Slot) (x : String) :
    x ∈ take taken slot ↔ x ∈ take taken' slot := by
  rw [take, take, make_congr h, List.mem_append, List.mem_append, h]

theorem shape_congr (h : ∀ x, x ∈ taken ↔ x ∈ taken') (slot : Option Slot) :
    shape taken slot = shape taken' slot := by
  rw [shape, shape, make_congr h]

end Slot

namespace Visit

theorem digested_congr (h : ∀ x, x ∈ taken ↔ x ∈ taken') (visit : Visit) (id : String) :
    visit.digested taken id = visit.digested taken' id := by
  rw [digested, digested, Slot.shape_congr h, Slot.shape_congr (Slot.mem_take_congr h _)]

theorem made_congr (h : ∀ x, x ∈ taken ↔ x ∈ taken') (visit : Visit) (id : String) :
    visit.made taken id = visit.made taken' id := by
  rw [made, made, Slot.make_congr h, Slot.make_congr (Slot.mem_take_congr h _)]

theorem mem_takeNames_congr (h : ∀ x, x ∈ taken ↔ x ∈ taken') (visit : Visit) (id x : String) :
    x ∈ visit.takeNames taken id ↔ x ∈ visit.takeNames taken' id :=
  Slot.mem_take_congr (Slot.mem_take_congr h _) _ x

/-- **A run depends on the set of the taken names alone**, not on their order. -/
theorem digest_congr_names : ∀ {taken taken' : List String} (visits : List (Visit × String)),
    (∀ x, x ∈ taken ↔ x ∈ taken') → digest taken visits = digest taken' visits
  | _, _, [], _ => rfl
  | taken, taken', (visit, id) :: rest, h => by
    have hrest := digest_congr_names rest (mem_takeNames_congr h visit id)
    rw [digest_cons, digest_cons, digested_congr h, made_congr h, hrest]

end Visit
end

/-! ## The content of the schema table -/

namespace Document

theorem find?_tableRecords (document : Document) (name : String) :
    document.tableRecords.find? (fun record => record.name = name) =
      (document.schemas.get? name).map (Schema.record name) := by
  rw [tableRecords, Table.get?]
  induction document.schemas.entries with
  | nil => rfl
  | cons entry rest ih =>
    have hname : (entry.2.record entry.1).name = entry.1 := rfl
    rw [List.map_cons, List.find?_cons, Fields.get?_cons, hname]
    by_cases h : entry.1 = name
    · subst h; simp
    · simp only [h, decide_false, if_false, ih]

/-- A name is looked up in the schema table first. -/
theorem schema?_digest (document : Document) (name : String) :
    document.digest.schema? name = ((document.schemas.get? name).map (Schema.record name)).or
      (document.madeSchemas.find? fun record => record.name = name) := by
  rw [Digest.schema?, digest_schemas, List.find?_append, find?_tableRecords]

variable {d e : Document}

theorem visits_congr (hpaths : d.paths = e.paths) : d.visits = e.visits := by
  rw [visits, visits, hpaths]

theorem operationIds_congr (hvisits : d.visits = e.visits) : d.operationIds = e.operationIds := by
  rw [operationIds, operationIds, explicitIds, explicitIds, hvisits]

/-- **The content of the schema table is confined to its own records.**  Documents with
    the same paths whose tables have the same names, in whatever order and with
    whatever entries, agree in all operations and in the records that are made for
    bodies, and each name with the same entry in both has the same record. -/
theorem table_noninterference (hpaths : d.paths = e.paths)
    (hnames : ∀ name, name ∈ d.schemas.keys ↔ name ∈ e.schemas.keys) :
    d.digest.operations = e.digest.operations ∧
      (∃ made,
        d.digest.schemas = (d.schemas.entries.map fun entry => entry.2.record entry.1) ++ made ∧
        e.digest.schemas = (e.schemas.entries.map fun entry => entry.2.record entry.1) ++ made) ∧
      (∀ name, d.schemas.get? name = e.schemas.get? name →
        d.digest.schema? name = e.digest.schema? name) ∧
      ∀ name schema, d.schemas.get? name = some schema →
        d.digest.schema? name = some (schema.record name) := by
  have hvisits := visits_congr hpaths
  have hrun : Visit.digest d.schemas.keys (d.visits.zip d.operationIds) =
      Visit.digest e.schemas.keys (e.visits.zip e.operationIds) := by
    rw [operationIds_congr hvisits, hvisits, Visit.digest_congr_names _ hnames]
  have hoperations : d.digest.operations = e.digest.operations := by
    rw [digest, digest, hrun]
  have hmade : d.madeSchemas = e.madeSchemas := by rw [madeSchemas, madeSchemas, hrun]
  refine ⟨hoperations, ⟨d.madeSchemas, rfl, ?_⟩, fun name hentry => ?_,
    fun name schema hentry => ?_⟩
  · rw [hmade]; rfl
  · rw [schema?_digest, schema?_digest, hentry, hmade]
  · rw [schema?_digest, hentry]; rfl

/-- A document that saves notes, with the given schema table. -/
def notes (schemas : List (String × Json)) : Document := ofFields [
  ("paths", .obj [("/notes", .obj [("post", .obj [
    ("operationId", .str "save"),
    ("requestBody", .obj [("content", .obj [("application/json", .obj [("schema", .obj [
      ("properties", .obj [("note", .obj [("$ref", .str "#/components/schemas/Note")])])])])])])])])]),
  ("components", .obj [("schemas", .obj schemas)])]

/-- An entry of the schema table with one property that points at an entry. -/
def pointingAt (name : String) : Json :=
  .obj [("properties", .obj [("next", .obj [("$ref", .str ("#/components/schemas/" ++ name))])])]

/-- Entries that point at each other and at themselves. -/
def entangled : List (String × Json) :=
  [("Note", pointingAt "Tree"), ("Tree", pointingAt "Note"), ("SaveBody", pointingAt "SaveBody")]

/-- Entries with the same names, of which only `Note` is the same. -/
def untangled : List (String × Json) :=
  [("SaveBody", .obj []), ("Tree", pointingAt "Missing"), ("Note", pointingAt "Tree")]

theorem table_noninterference_notes :
    (notes entangled).paths = (notes untangled).paths ∧
      (∀ name, name ∈ (notes entangled).schemas.keys ↔ name ∈ (notes untangled).schemas.keys) ∧
      (notes entangled).digest.schemas.map SchemaRecord.name =
        ["Note", "Tree", "SaveBody", "SaveBody2"] ∧
      (notes entangled).digest.operations = (notes untangled).digest.operations ∧
      (notes entangled).digest.schema? "SaveBody2" = (notes untangled).digest.schema? "SaveBody2" ∧
      (notes entangled).digest.schema? "Note" = (notes untangled).digest.schema? "Note" ∧
      (notes entangled).digest.schema? "Tree" ≠ (notes untangled).digest.schema? "Tree" := by
  have hpaths : (notes entangled).paths = (notes untangled).paths := rfl
  have hperm : (notes entangled).schemas.keys.Perm (notes untangled).schemas.keys := by
    decide +kernel
  have hnote : (notes entangled).schemas.get? "Note" = Schema.ofJson? (pointingAt "Tree") := rfl
  have hnote' : (notes untangled).schemas.get? "Note" = Schema.ofJson? (pointingAt "Tree") := rfl
  have hmade : (notes entangled).schemas.get? "SaveBody2" = none := rfl
  have hmade' : (notes untangled).schemas.get? "SaveBody2" = none := rfl
  obtain ⟨hoperations, -, hsame, -⟩ := table_noninterference hpaths fun name => hperm.mem_iff
  exact ⟨hpaths, fun name => hperm.mem_iff, by decide +kernel, hoperations,
    hsame "SaveBody2" (hmade.trans hmade'.symm), hsame "Note" (hnote.trans hnote'.symm),
    by decide +kernel⟩

/-! ## Paths added at the end -/

variable {further : List (String × PathItem)}

theorem visits_of_append (hpaths : e.paths.entries = d.paths.entries ++ further) :
    e.visits = d.visits ++ further.flatMap fun entry => entry.2.visits entry.1 := by
  rw [visits, visits, hpaths, List.flatMap_append]

/-- Paths that declare no identifier leave the declared ones as they are. -/
theorem explicitIds_of_append (hpaths : e.paths.entries = d.paths.entries ++ further)
    (hinferred : ∀ entry ∈ further, ∀ op ∈ entry.2.operations, op.2.explicitId? = none) :
    e.explicitIds = d.explicitIds := by
  have hnone : (further.flatMap fun entry => entry.2.visits entry.1).filterMap
      (fun visit => visit.operation.explicitId?) = [] := by
    rw [List.filterMap_eq_nil_iff]
    intro visit hvisit
    obtain ⟨entry, hentry, hvisit⟩ := List.mem_flatMap.1 hvisit
    obtain ⟨op, hop, rfl⟩ := List.mem_map.1 hvisit
    exact hinferred entry hentry op hop
  rw [explicitIds, explicitIds, visits_of_append hpaths, List.filterMap_append, hnone,
    List.append_nil]

/-- The walk gives the identifiers of the first paths before it comes to the others. -/
theorem identified_of_append (hpaths : e.paths.entries = d.paths.entries ++ further)
    (hinferred : ∀ entry ∈ further, ∀ op ∈ entry.2.operations, op.2.explicitId? = none) :
    d.identified <+: e.identified := by
  have hlen : d.visits.length = (Visit.ids d.explicitIds d.visits).length :=
    d.length_operationIds.symm
  rw [identified, identified, operationIds, operationIds, explicitIds_of_append hpaths hinferred,
    visits_of_append hpaths, Visit.ids_append, List.zip_append hlen]
  exact List.prefix_append _ _

/-- **Growth at the end changes nothing before it.**  If a document has the schema table
    of another and the other's paths before its own further ones, and these declare no
    identifiers, all records of the other stand first in its digest. -/
theorem digest_prefix (hschemas : e.schemas = d.schemas)
    (hpaths : e.paths.entries = d.paths.entries ++ further)
    (hinferred : ∀ entry ∈ further, ∀ op ∈ entry.2.operations, op.2.explicitId? = none) :
    d.digest.operations <+: e.digest.operations ∧ d.digest.schemas <+: e.digest.schemas := by
  obtain ⟨later, hlater⟩ := identified_of_append hpaths hinferred
  obtain ⟨hoperations, hmade⟩ := Visit.digest_append d.schemas.keys d.identified later
  rw [hlater, ← hschemas] at hoperations hmade
  constructor
  · show (Visit.digest d.schemas.keys d.identified).operations <+:
      (Visit.digest e.schemas.keys e.identified).operations
    rw [hoperations, hschemas]
    exact List.prefix_append _ _
  · show d.tableRecords ++ (Visit.digest d.schemas.keys d.identified).schemas <+:
      e.tableRecords ++ (Visit.digest e.schemas.keys e.identified).schemas
    rw [hmade, hschemas, tableRecords, tableRecords, hschemas, ← List.append_assoc]
    exact List.prefix_append _ _

/-- A path with one operation, whose response is described in place. -/
def listing (method : String) : Json :=
  .obj [(method, .obj [("responses", .obj [("200", .obj [("content", .obj [
    ("application/json", .obj [("schema", pointingAt "User")])])])])])]

/-- A document with the given paths, and with an entry in the way of a response of
    `listUsers`. -/
def accounts (paths : List (String × Json)) : Document := ofFields [
  ("paths", .obj paths),
  ("components", .obj [("schemas", .obj [("ListUsersResponse", pointingAt "User")])])]

/-- A path. -/
def firstPaths : List (String × Json) := [("/users", listing "get")]

/-- Paths that suggest the identifier of the first one, and another. -/
def furtherPaths : List (String × Json) :=
  [("/v2/users", listing "get"), ("/v1/users/search", listing "post")]

theorem digest_prefix_accounts :
    (accounts (firstPaths ++ furtherPaths)).schemas = (accounts firstPaths).schemas ∧
    (accounts (firstPaths ++ furtherPaths)).paths.entries =
      (accounts firstPaths).paths.entries ++ (accounts furtherPaths).paths.entries ∧
    (∀ entry ∈ (accounts furtherPaths).paths.entries,
      ∀ op ∈ entry.2.operations, op.2.explicitId? = none) ∧
    (accounts (firstPaths ++ furtherPaths)).digest.operations.map OperationRecord.id =
      ["listUsers", "listUsers2", "searchUsers"] ∧
    (accounts (firstPaths ++ furtherPaths)).digest.schemas.map SchemaRecord.name =
      ["ListUsersResponse", "ListUsersResponse2", "ListUsers2Response", "SearchUsersResponse"] ∧
    (accounts firstPaths).digest.operations <+:
      (accounts (firstPaths ++ furtherPaths)).digest.operations ∧
    (accounts firstPaths).digest.schemas <+:
      (accounts (firstPaths ++ furtherPaths)).digest.schemas := by
  have hinferred : ∀ entry ∈ (accounts furtherPaths).paths.entries,
      ∀ op ∈ entry.2.operations, op.2.explicitId? = none := by decide +kernel
  have hpaths : (accounts (firstPaths ++ furtherPaths)).paths.entries =
      (accounts firstPaths).paths.entries ++ (accounts furtherPaths).paths.entries := rfl
  exact ⟨rfl, hpaths, hinferred, by decide +kernel, by decide +kernel,
    digest_prefix rfl hpaths hinferred⟩

end Document
end ApiDigest
