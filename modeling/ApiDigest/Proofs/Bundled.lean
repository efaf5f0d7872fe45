/-
  Bundled documents.

  Bundling changes a document at the places where pointers to reusable parts may stand,
  its slots, and nowhere else.  What stands in a slot is replaced by what it leads to
  over at most eight pointers.

  * `Bundle.PointsTo`, `Bundle.Leads` and `Bundle.Reaches` say what a pointer leads to
    without computing it, and `Bundle.reaches_iff` says that `Bundle.follow` computes it;
  * `Bundle.isSlot` is the class of the slots, and `Bundle.bundle_eq_changeAt` says that
    bundling is a change there;
  * `Bundle.bundle_exact` puts this together: where no chain of pointers is too long,
    no pointer is left, and bundling again changes nothing.
-/
import ApiDigest.Proofs.Parts
import ApiDigest.Proofs.Pointers
import ApiDigest.Proofs.NormalView

namespace ApiDigest.Bundle

variable {components : List (String × Json)} {value target reached : Json} {hops bound : ℕ}

/-! ## Pointers -/

/-- The value holds a pointer `#/components/<kind>/<name>` to the target: the name, with
    its escapes undone, is that of an entry of the components of the kind. -/
def PointsTo (components : List (String × Json)) (value target : Json) : Prop :=
  ∃ kind ∈ kinds, ∃ name,
    value.text? "$ref" = some (Upgrade.componentPointer kind name) ∧
      (Fields.get? kind components).bind (Json.get? (Pointer.unescape name)) = some target

/-- The beginning of a pointer is cut at its first slash. -/
theorem eq_of_kindAndName? {rest kind name : String} (h : kindAndName? rest = some (kind, name)) :
    ∃ escaped, rest = kind ++ "/" ++ escaped ∧ name = Pointer.unescape escaped := by
  have hcut := List.takeWhile_append_dropWhile (p := (· ≠ '/')) (l := rest.toList)
  have hslash := List.head?_dropWhile_not (p := (· ≠ '/')) rest.toList
  rw [kindAndName?] at h
  cases hdrop : rest.toList.dropWhile (· ≠ '/') with
  | nil => rw [hdrop] at h; cases h
  | cons c escaped =>
    rw [hdrop] at h hcut hslash
    obtain ⟨rfl, rfl⟩ := Prod.mk.inj (Option.some.inj h)
    have hc : c = '/' := by simpa using hslash
    refine ⟨String.ofList escaped, String.toList_inj.1 ?_, rfl⟩
    rw [String.toList_append, String.toList_append, List.append_assoc]
    simp only [String.toList_ofList]
    exact hcut.symm.trans (by rw [hc]; rfl)

theorem target?_eq_some_iff : target? components value = some target ↔
    PointsTo components value target := by
  constructor
  · intro h
    obtain ⟨pointer, hpointer, hresolve⟩ := Option.bind_eq_some_iff.1 h
    unfold resolve? at hresolve
    split at hresolve
    · rename_i kind name hcut
      split_ifs at hresolve with hkind
      obtain ⟨rest, hrest, hname⟩ := Option.bind_eq_some_iff.1 hcut
      obtain ⟨escaped, rfl, rfl⟩ := eq_of_kindAndName? hname
      rw [Text.afterStart?_eq_some hrest] at hpointer
      exact ⟨kind, hkind, escaped, hpointer, hresolve⟩
    · cases hresolve
  · rintro ⟨kind, hkind, name, hpointer, hentry⟩
    rw [target?, hpointer, Option.bind_some, resolve?_componentPointer hkind, hentry]

theorem target?_eq_none_iff : target? components value = none ↔
    ¬ ∃ target, PointsTo components value target := by
  simp only [Option.eq_none_iff_forall_ne_some, ne_eq, target?_eq_some_iff, not_exists]

/-! ## Chains of pointers -/

/-- The value leads to another one over just so many pointers. -/
inductive Leads (components : List (String × Json)) : ℕ → Json → Json → Prop
  | here (value : Json) : Leads components 0 value value
  | hop {hops : ℕ} {value target reached : Json} : PointsTo components value target →
      Leads components hops target reached → Leads components (hops + 1) value reached

/-- What is reached over at most so many pointers: the first value that points nowhere,
    or the last one that the bound admits. -/
def Reaches (components : List (String × Json)) (bound : ℕ) (value reached : Json) : Prop :=
  ∃ hops ≤ bound, Leads components hops value reached ∧
    (hops = bound ∨ ¬ ∃ target, PointsTo components reached target)

/-- **Following computes what is reached.** -/
theorem reaches_iff : Reaches components bound value reached ↔
    reached = follow components bound value := by
  induction bound generalizing value with
  | zero =>
    constructor
    · rintro ⟨hops, hle, hleads, -⟩
      obtain rfl := Nat.le_zero.1 hle
      cases hleads
      rfl
    · rintro rfl
      exact ⟨0, Nat.le_refl 0, .here _, Or.inl rfl⟩
  | succ bound ih =>
    rw [follow]
    cases htarget : target? components value with
    | none =>
      have hstuck := target?_eq_none_iff.1 htarget
      constructor
      · rintro ⟨hops, -, hleads, -⟩
        cases hleads with
        | here => rfl
        | hop hpoints => exact absurd ⟨_, hpoints⟩ hstuck
      · rintro rfl
        exact ⟨0, Nat.zero_le _, .here _, Or.inr hstuck⟩
    | some target =>
      have hpoints := target?_eq_some_iff.1 htarget
      show _ ↔ reached = follow components bound target
      rw [← ih]
      constructor
      · rintro ⟨hops, hle, hleads, hend⟩
        cases hleads with
        | here =>
          -- the value points on, and not even one pointer was followed
          rcases hend with h | h
          · exact absurd h (Nat.succ_ne_zero bound).symm
          · exact absurd ⟨target, hpoints⟩ h
        | @hop hops _ target' _ hpoints' hrest =>
          obtain rfl : target' = target :=
            Option.some.inj ((target?_eq_some_iff.2 hpoints').symm.trans htarget)
          exact ⟨hops, Nat.le_of_succ_le_succ hle, hrest, hend.imp_left Nat.succ.inj⟩
      · rintro ⟨hops, hle, hleads, hend⟩
        exact ⟨hops + 1, Nat.succ_le_succ hle, .hop hpoints hleads,
          hend.imp_left (congrArg Nat.succ)⟩

theorem follow_of_pointsTo (h : PointsTo components value target) :
    follow components (bound + 1) value = follow components bound target := by
  rw [follow, target?_eq_some_iff.2 h]

/-- **More pointers than the bound can be followed** exactly if what following ends at
    points on. -/
theorem exists_leads_iff : (∃ reached, Leads components (bound + 1) value reached) ↔
    ∃ target, PointsTo components (follow components bound value) target := by
  induction bound generalizing value with
  | zero =>
    constructor
    · rintro ⟨reached, h⟩
      cases h with
      | hop hpoints => exact ⟨_, hpoints⟩
    · rintro ⟨target, hpoints⟩
      exact ⟨target, .hop hpoints (.here target)⟩
  | succ bound ih =>
    constructor
    · rintro ⟨reached, h⟩
      cases h with
      | hop hpoints hrest => rw [follow_of_pointsTo hpoints]; exact ih.1 ⟨reached, hrest⟩
    · intro h
      by_cases hvalue : ∃ target, PointsTo components value target
      · obtain ⟨target, hpoints⟩ := hvalue
        rw [follow_of_pointsTo hpoints] at h
        obtain ⟨reached, hrest⟩ := ih.2 h
        exact ⟨reached, .hop hpoints hrest⟩
      · rw [follow_of_pointerless (target?_eq_none_iff.2 hvalue)] at h
        exact absurd h hvalue

theorem distinctKeys_follow (hcomponents : (Json.obj components).DistinctKeys)
    (hvalue : value.DistinctKeys) : (follow components bound value).DistinctKeys := by
  induction bound generalizing value with
  | zero => exact hvalue
  | succ bound ih =>
    rw [follow]
    cases htarget : target? components value with
    | none => exact hvalue
    | some target =>
      obtain ⟨kind, -, name, -, hentry⟩ := target?_eq_some_iff.1 htarget
      obtain ⟨table, htable, hget⟩ := Option.bind_eq_some_iff.1 hentry
      have htable := hcomponents.field (Fields.mem_of_get? htable)
      exact ih (htable.get? hget)

/-! ## Slots -/

/-- The slots of an operation: its parameters, its body and its responses. -/
def isOperationSlot : List Json.Step → Bool
  | [.key key, .item] => key = "parameters"
  | [.key key] => key = "requestBody"
  | [.key key, .key _] => key = "responses"
  | _ => false

/-- The slots of a path item: its parameters, and those of its operations. -/
def isItemSlot : List Json.Step → Bool
  | [.key key, .item] => key = "parameters"
  | .key key :: steps => key ∈ methods && isOperationSlot steps
  | _ => false

/-- The slots of a document: those of the path items in its paths. -/
def isSlot : List Json.Step → Bool
  | .key key :: .key _ :: steps => key = "paths" && isItemSlot steps
  | _ => false

theorem keys_foldl_update (f : Json → Json) (keys : List String) (fields : List (String × Json)) :
    Fields.keys (keys.foldl (fun fields key => Fields.update key f fields) fields) =
      Fields.keys fields := by
  induction keys generalizing fields with
  | nil => rfl
  | cons key rest ih => rw [List.foldl_cons, ih, Fields.keys_update]

/-- **An operation is changed in its slots only.** -/
theorem changeAt_operation (h : value.DistinctKeys) :
    Json.changeAt (inline components) isOperationSlot value =
      value.mapFields (inlineOperation components) := by
  rw [Json.changeAt_fields rfl fun _ => rfl]
  cases value with
  | obj fields =>
    refine congrArg Json.obj (Fields.eq_of_get? ?_ (by rw [Fields.keys_mapWithKey]; exact h.keys)
      fun k => ?_)
    · simp only [Fields.keys_mapWithKey, inlineOperation, inlineParameters, Fields.keys_update]
    rw [Fields.get?_mapWithKey, get?_inlineOperation]
    split_ifs with hparams hbody hresponses
    · subst hparams
      exact congrArg (Option.map · _) (funext (Json.changeAt_items (by decide) (by decide)
        fun key steps => by cases steps <;> simp [Json.under, isOperationSlot]))
    · subst hbody
      exact congrArg (Option.map · _) (funext (Json.changeAt_here (by decide)))
    · subst hresponses
      exact congrArg (Option.map · _) (funext (Json.changeAt_values (by decide)
        (fun key => by simp [Json.under, isOperationSlot])
        fun steps => by cases steps <;> simp [Json.under, isOperationSlot]))
    · have hnone : ∀ steps, Json.under (.key k) isOperationSlot steps = false := by
        rintro (_ | ⟨_ | _, _ | _⟩) <;> simp [Json.under, isOperationSlot, *]
      rw [funext (Json.changeAt_nowhere hnone), Option.map_id']
  | _ => rfl

/-- **So is a path item.** -/
theorem changeAt_pathItem (h : value.DistinctKeys) :
    Json.changeAt (inline components) isItemSlot value =
      value.mapFields (inlinePathItem components) := by
  rw [Json.changeAt_fields rfl fun _ => rfl]
  cases value with
  | obj fields =>
    refine congrArg Json.obj (Fields.eq_of_get? ?_ (by rw [Fields.keys_mapWithKey]; exact h.keys)
      fun k => ?_)
    · rw [Fields.keys_mapWithKey, inlinePathItem, keys_foldl_update, inlineParameters,
        Fields.keys_update]
    rw [Fields.get?_mapWithKey, get?_inlinePathItem]
    split_ifs with hmethod hparams
    · have hne : k ≠ "parameters" := by rintro rfl; exact absurd hmethod (by decide)
      have hunder : Json.under (.key k) isItemSlot = isOperationSlot := by
        funext steps
        rcases steps with _ | ⟨_ | _, _ | _⟩ <;> simp [Json.under, isItemSlot, isOperationSlot, *]
      rw [hunder]
      cases hvalue : Fields.get? k fields with
      | none => rfl
      | some op => exact congrArg some (changeAt_operation (h.field (Fields.mem_of_get? hvalue)))
    · subst hparams
      exact congrArg (Option.map · _) (funext (Json.changeAt_items (by decide) (by decide)
        fun key steps => by simp [Json.under, isItemSlot, methods]))
    · have hnone : ∀ steps, Json.under (.key k) isItemSlot steps = false := by
        rintro (_ | ⟨_ | _, _ | _⟩) <;> simp [Json.under, isItemSlot, *]
      rw [funext (Json.changeAt_nowhere hnone), Option.map_id']
  | _ => rfl

/-- The path items of a document, at whatever path. -/
theorem changeAt_paths (h : value.DistinctKeys) :
    Json.changeAt (inline components) (Json.under (.key "paths") isSlot) value =
      value.mapFields (Fields.mapValues (Json.mapFields (inlinePathItem components))) := by
  rw [Json.changeAt_fields rfl fun _ => rfl]
  cases value with
  | obj fields =>
    exact congrArg Json.obj (List.map_congr_left fun field hfield =>
      congrArg (Prod.mk field.1) (changeAt_pathItem (h.field hfield)))
  | _ => rfl

variable {document : Json}

/-- **Bundling changes a document in its slots only.** -/
theorem bundle_eq_changeAt (h : document.DistinctKeys) :
    document.bundle = document.changeAt (inline (document.fieldsAt "components")) isSlot := by
  rw [Json.changeAt_fields rfl fun _ => rfl]
  cases document with
  | obj fields =>
    refine congrArg Json.obj (Fields.eq_of_get? ?_ (by rw [Fields.keys_update]; exact h.keys)
      fun k => ?_)
    · rw [Fields.keys_mapWithKey, Fields.keys_update]
    rw [Fields.get?_mapWithKey, Fields.get?_update]
    split_ifs with hpaths
    · subst hpaths
      cases hvalue : Fields.get? "paths" fields with
      | none => rfl
      | some paths =>
        exact congrArg some (changeAt_paths (h.field (Fields.mem_of_get? hvalue))).symm
    · have hnone : ∀ steps, Json.under (.key k) isSlot steps = false := by
        rintro (_ | ⟨_ | _, _⟩) <;> simp [Json.under, isSlot, hpaths]
      rw [funext (Json.changeAt_nowhere hnone), Option.map_id']
  | _ => rfl

/-! ## Bundled documents -/

theorem get?_bundle {k : String} (hk : k ≠ "paths") (document : Json) :
    document.bundle.get? k = document.get? k := by
  cases document with
  | obj fields => exact (Fields.get?_update _ _ fields k).trans (if_neg hk)
  | _ => rfl

theorem fieldsAt_bundle (document : Json) :
    document.bundle.fieldsAt "components" = document.fieldsAt "components" := by
  rw [Json.fieldsAt, get?_bundle (by decide), Json.fieldsAt]

theorem distinctKeys_bundle (h : document.DistinctKeys) : document.bundle.DistinctKeys := by
  rw [bundle_eq_changeAt h]
  exact h.changeAt fun value => distinctKeys_follow (h.fieldsAt _)

/-- **Bundling replaces what stands in a slot by what it leads to** over at most eight
    pointers into the document's own components, and changes nothing else.  If from no
    slot nine pointers can be followed, none is left, and bundling again changes nothing. -/
theorem bundle_exact (h : document.DistinctKeys) :
    (document.bundle = document.changeAt (inline (document.fieldsAt "components")) isSlot ∧
      ∀ value reached, Reaches (document.fieldsAt "components") 8 value reached ↔
        reached = inline (document.fieldsAt "components") value) ∧
    ((∀ slot ∈ document.partsAt isSlot,
        ¬ ∃ reached, Leads (document.fieldsAt "components") 9 slot reached) →
      (∀ slot ∈ document.bundle.partsAt isSlot,
        ¬ ∃ target, PointsTo (document.bundle.fieldsAt "components") slot target) ∧
      document.bundle.bundle = document.bundle) := by
  refine ⟨⟨bundle_eq_changeAt h, fun value reached => reaches_iff⟩, fun hchains => ?_⟩
  have hslots : ∀ slot ∈ document.bundle.partsAt isSlot,
      ¬ ∃ target, PointsTo (document.bundle.fieldsAt "components") slot target := by
    rw [bundle_eq_changeAt h, Json.partsAt_changeAt, ← bundle_eq_changeAt h, fieldsAt_bundle]
    intro slot hslot
    obtain ⟨source, hsource, rfl⟩ := List.mem_map.1 hslot
    exact mt exists_leads_iff.2 (hchains source hsource)
  refine ⟨hslots, ?_⟩
  rw [bundle_eq_changeAt (distinctKeys_bundle h)]
  exact Json.changeAt_eq_self fun slot hslot =>
    inline_of_pointerless (target?_eq_none_iff.2 (hslots slot hslot))

/-- A pointer and nothing else. -/
def pointer (text : String) : Json := .obj [("$ref", .str text)]

/-- The page size, as a parameter. -/
def pageSize : Json := .obj [("name", .str "size"), ("in", .str "query")]

/-- What is said of a book that is not there. -/
def bookGone : Json := .obj [("description", .str "No such book.")]

/-- Books in a shelf, with something in each of their slots; the page size is behind two
    pointers when it is reused. -/
def shelfOf (shared own body gone broken : Json) : Json := .obj [
  ("openapi", .str "3.0.0"),
  ("components", .obj [
    ("parameters", .obj [
      ("size", pointer "#/components/parameters/page~1size"), ("page/size", pageSize)]),
    ("requestBodies", .obj [("book", .obj [("required", .bool true)])]),
    ("responses", .obj [("gone", bookGone)])]),
  ("paths", .obj [
    ("/books", .obj [
      ("parameters", .arr [shared]),
      ("put", .obj [
        ("parameters", .arr [own, .str "size"]),
        ("requestBody", body),
        ("responses", .obj [("404", gone), ("500", broken)]),
        ("x-size", pointer "#/components/parameters/size")])])])]

/-- A pointer in each slot, of which the last leads nowhere. -/
def shelf : Json :=
  shelfOf (pointer "#/components/parameters/size") (pointer "#/components/parameters/page~1size")
    (pointer "#/components/requestBodies/book") (pointer "#/components/responses/gone")
    (pointer "#/components/responses/broken")

theorem bundle_exact_shelf :
    shelf.DistinctKeys ∧
      shelf.bundle = shelfOf pageSize pageSize (.obj [("required", .bool true)]) bookGone
        (pointer "#/components/responses/broken") ∧
      (∀ slot ∈ shelf.partsAt isSlot,
        ¬ ∃ reached, Leads (shelf.fieldsAt "components") 9 slot reached) ∧
      (∀ slot ∈ shelf.bundle.partsAt isSlot,
        ¬ ∃ target, PointsTo (shelf.bundle.fieldsAt "components") slot target) ∧
      shelf.bundle.bundle = shelf.bundle := by
  have hkeys : shelf.DistinctKeys := by decide +kernel
  have hends : ∀ slot ∈ shelf.partsAt isSlot,
      (target? (shelf.fieldsAt "components")
        (follow (shelf.fieldsAt "components") 8 slot)).isNone = true := by decide +kernel
  have hchains : ∀ slot ∈ shelf.partsAt isSlot,
      ¬ ∃ reached, Leads (shelf.fieldsAt "components") 9 slot reached := fun slot hslot =>
    mt exists_leads_iff.1 (target?_eq_none_iff.1 (Option.isNone_iff_eq_none.1 (hends slot hslot)))
  obtain ⟨⟨hslots, -⟩, hbundled⟩ := bundle_exact hkeys
  exact ⟨hkeys, hslots.trans rfl, hchains, hbundled hchains⟩

end ApiDigest.Bundle
