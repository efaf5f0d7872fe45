/-
  Media types and servers of an old document.

  The media types of an old document only say under which key the schema of a
  response stands, and the servers are not part of a digest.  So the digest is that
  of the document without them.

  * `Upgrade.bare` is a document without its media types and servers;
  * `Upgrade.Alike` says that two values look the same wherever they may stand, and
    `Upgrade.alike_response` that a response is brought over to values that do,
    whatever the media types;
  * `Upgrade.digest_bare`: the digest is that of the bare document.
-/
import ApiDigest.Proofs.Agreement
import ApiDigest.Proofs.NormalBodies

namespace ApiDigest.Upgrade

/-! ## Bare documents -/

/-- The keys of media types and of the ways to reach an operation. -/
def mediaKeys : List String := ["produces", "consumes", "schemes"]

/-- The keys of media types and servers of a document. -/
def serverKeys : List String := "host" :: "basePath" :: mediaKeys

/-- The fields without some keys. -/
def without (keys : List String) (fields : List (String × Json)) : List (String × Json) :=
  fields.filter fun field => field.1 ∉ keys

/-- A path item without the media types of its operations. -/
def bareItem (item : List (String × Json)) : List (String × Json) :=
  item.map fun field =>
    (field.1, if field.1 ∈ methods then field.2.mapFields (without mediaKeys) else field.2)

/-- A document without media types and servers. -/
def bare (root : List (String × Json)) : List (String × Json) :=
  Fields.update "paths" (Json.mapFields (Fields.mapValues (Json.mapFields bareItem)))
    (without serverKeys root)

variable {root item op fields : List (String × Json)} {k : String}

theorem get?_without (keys : List String) (fields : List (String × Json)) (k : String) :
    Fields.get? k (without keys fields) = if k ∈ keys then none else Fields.get? k fields := by
  induction fields with
  | nil => split_ifs <;> rfl
  | cons field rest ih =>
    rw [without] at ih ⊢
    by_cases hfield : field.1 ∈ keys
    · rw [List.filter_cons_of_neg (by simpa using hfield), ih, Fields.get?_cons]
      by_cases hk : k ∈ keys
      · simp [hk]
      · have hne : field.1 ≠ k := fun e => hk (e ▸ hfield)
        simp [hk, hne]
    · rw [List.filter_cons_of_pos (by simpa using hfield), Fields.get?_cons, Fields.get?_cons, ih]
      by_cases hk : field.1 = k
      · subst hk; simp [hfield]
      · simp [hk]

theorem distinctKeys_without (keys : List String) (h : (Json.obj fields).DistinctKeys) :
    (Json.obj (without keys fields)).DistinctKeys := by
  rw [Json.distinctKeys_obj_iff] at h ⊢
  exact ⟨Fields.nodup_keys_filter _ h.1, fun field hmem => h.2 field (List.mem_filter.1 hmem).1⟩

theorem keys_bareItem (item : List (String × Json)) :
    Fields.keys (bareItem item) = Fields.keys item := by
  simp [Fields.keys, bareItem]

theorem get?_bareItem (item : List (String × Json)) (k : String) :
    Fields.get? k (bareItem item) = (Fields.get? k item).map fun value =>
      if k ∈ methods then value.mapFields (without mediaKeys) else value := by
  induction item with
  | nil => rfl
  | cons field rest ih =>
    rw [bareItem, List.map_cons, Fields.get?_cons, Fields.get?_cons, ← bareItem, ih]
    by_cases hk : field.1 = k
    · subst hk; simp
    · simp [hk]

theorem get?_bare (root : List (String × Json)) (k : String) :
    Fields.get? k (bare root) =
      if k = "paths" then (Fields.get? "paths" root).map
        (Json.mapFields (Fields.mapValues (Json.mapFields bareItem)))
      else if k ∈ serverKeys then none else Fields.get? k root := by
  rw [bare, Fields.get?_update, get?_without]
  by_cases hk : k = "paths"
  · subst hk
    simp [serverKeys, mediaKeys]
  · simp [hk]

/-- Any other key holds what it held. -/
theorem get?_bare_of_ne (hpaths : k ≠ "paths") (hserver : k ∉ serverKeys) :
    Fields.get? k (bare root) = Fields.get? k root := by
  rw [get?_bare, if_neg hpaths, if_neg hserver]

theorem objectAt_bare (hpaths : k ≠ "paths") (hserver : k ∉ serverKeys) :
    objectAt k (bare root) = objectAt k root := by
  rw [objectAt, get?_bare_of_ne hpaths hserver, objectAt]

theorem objectAt_paths_bare (root : List (String × Json)) :
    objectAt "paths" (bare root) =
      Fields.mapValues (Json.mapFields bareItem) (objectAt "paths" root) := by
  rw [objectAt, get?_bare, if_pos rfl, objectAt]
  cases Fields.get? "paths" root with
  | none => rfl
  | some value => cases value <;> rfl

/-! ## Values that look the same -/

/-- Two values look the same wherever a pointer may stand: as a pointer, as a parameter,
    as a body and as a response. -/
structure Alike (a b : Json) : Prop where
  pointer : a.text? "$ref" = b.text? "$ref"
  parameter : Parameter.ofJson? a = Parameter.ofJson? b
  body : bodySchemaOf? a = bodySchemaOf? b
  response : responseSchemaOf? a = responseSchemaOf? b

theorem Alike.refl (value : Json) : Alike value value := ⟨rfl, rfl, rfl, rfl⟩

/-- **A response looks the same under all media types.** -/
theorem alike_response (p q : List String) {value : Json} (h : value.DistinctKeys) :
    Alike (move (response p value)) (move (response q value)) := by
  cases value with
  | obj fields =>
    by_cases href : "$ref" ∈ Fields.keys fields
    · have hstays : ∀ produces, response produces (.obj fields) = .obj fields := fun produces =>
        if_pos (Fields.contains_iff.2 href)
      rw [hstays, hstays]
      exact .refl _
    · obtain ⟨a, ha, -, hgetA⟩ := exists_move_response p h.keys href
      obtain ⟨b, hb, -, hgetB⟩ := exists_move_response q h.keys href
      have hsame : ∀ k, k ≠ "content" → k ≠ "x-nullable" → k ≠ "nullable" →
          Fields.get? k a = Fields.get? k b := by
        intro k hk hx hn
        rw [hgetA k hx hn, hgetB k hx hn, responseAt, responseAt, if_neg hk, if_neg hk]
      have hcontent : selectSchema (Fields.readTable "content" MediaType.ofJson? a) =
          selectSchema (Fields.readTable "content" MediaType.ofJson? b) := by
        have hcontentA := hgetA "content" (by decide) (by decide)
        have hcontentB := hgetB "content" (by decide) (by decide)
        cases hschema : Fields.get? "schema" fields with
        | some schema =>
          rw [selectSchema_response hcontentA hschema, selectSchema_response hcontentB hschema]
        | none =>
          rw [responseAt, if_pos rfl, hschema, Option.map_none, Option.none_or]
            at hcontentA hcontentB
          rw [Fields.readTable, Fields.readTable, hcontentA, hcontentB]
      rw [ha, hb]
      constructor
      · exact congrArg (Option.bind · Json.str?) (hsame "$ref" (by decide) (by decide) (by decide))
      · show some _ = some _
        simp only [Fields.read, hsame "name" (by decide) (by decide) (by decide),
          hsame "in" (by decide) (by decide) (by decide),
          hsame "required" (by decide) (by decide) (by decide),
          hsame "schema" (by decide) (by decide) (by decide)]
      · exact hcontent
      · exact congrArg some hcontent
  | _ => exact .refl _

theorem alike_moveAt_response (p q : List String) (key : String) {value : Json}
    (h : value.DistinctKeys) :
    Alike (moveAt key (response p value)) (moveAt key (response q value)) := by
  cases value with
  | obj fields =>
    have hobject : ∀ produces, ∃ out, response produces (.obj fields) = .obj out := by
      intro produces
      rw [response]
      split_ifs <;> exact ⟨_, rfl⟩
    have halike := alike_response p q h
    obtain ⟨a, ha⟩ := hobject p
    obtain ⟨b, hb⟩ := hobject q
    rw [ha, hb] at halike ⊢
    rwa [moveAt_obj, moveAt_obj]
  | _ => exact .refl _

theorem rel_refl (value : Option Json) : Option.Rel Alike value value := by
  cases value with
  | none => exact .none
  | some value => exact .some (.refl value)

section
variable {a b : Json} {c c' : List (String × Json)}

/-- **What looks the same leads to what looks the same**, if the components do. -/
theorem alike_follow
    (h : ∀ pointer, Option.Rel Alike (Bundle.resolve? c pointer) (Bundle.resolve? c' pointer)) :
    ∀ (hops : ℕ) {a b : Json}, Alike a b → Alike (Bundle.follow c hops a) (Bundle.follow c' hops b)
  | 0, _, _, hab => hab
  | hops + 1, a, b, hab => by
    rw [Bundle.follow, Bundle.follow, Bundle.target?, Bundle.target?, hab.pointer]
    cases b.text? "$ref" with
    | none => exact hab
    | some pointer =>
      rw [Option.bind_some, Option.bind_some]
      have hpointer := h pointer
      generalize Bundle.resolve? c pointer = x, Bundle.resolve? c' pointer = y at hpointer ⊢
      cases hpointer with
      | none => exact hab
      | some htarget => exact alike_follow h hops htarget

end

theorem componentsAt_bare (hk : k ≠ "responses") :
    componentsAt (bare root) k = componentsAt root k := by
  have hparameters : reusableProper (bare root) = reusableProper root := by
    rw [reusableProper, objectAt_bare (by decide) (by decide), reusableProper]
  have hschemas : Fields.get? "definitions" (bare root) = Fields.get? "definitions" root :=
    get?_bare_of_ne (by decide) (by decide)
  have hsecurity : Fields.get? "securityDefinitions" (bare root) =
      Fields.get? "securityDefinitions" root :=
    get?_bare_of_ne (by decide) (by decide)
  simp only [componentsAt, hparameters, hschemas, hsecurity, if_neg hk]

/-- **The components of a bare document look the same.** -/
theorem alike_resolve? (hroot : (Json.obj root).DistinctKeys)
    (hx : "x-nullable" ∉ Fields.keys (objectAt "responses" root)) (pointer : String) :
    Option.Rel Alike (Bundle.resolve? (normalComponents root) pointer)
      (Bundle.resolve? (normalComponents (bare root)) pointer) := by
  have hresponses : ∀ name, Option.Rel Alike
      ((Fields.get? "responses" (normalComponents root)).bind (Json.get? name))
      ((Fields.get? "responses" (normalComponents (bare root))).bind (Json.get? name)) := by
    intro name
    have hobject : objectAt "responses" (bare root) = objectAt "responses" root :=
      objectAt_bare (by decide) (by decide)
    rw [get?_normalResponses hx, get?_normalResponses (hobject ▸ hx), hobject]
    cases hget : Fields.get? name (objectAt "responses" root) with
    | none => exact .none
    | some value =>
      have hkeys := (distinctKeys_objectAt hroot "responses").field (Fields.mem_of_get? hget)
      exact .some (alike_moveAt_response _ _ name hkeys)
  rw [Bundle.resolve?, Bundle.resolve?]
  split
  · split_ifs
    · rename_i kind name _ _
      by_cases hk : kind = "responses"
      · rw [hk]; exact hresponses name
      · rw [get?_normalComponents, get?_normalComponents, componentsAt_bare hk]
        exact rel_refl _
    · exact .none
  · exact .none

theorem alike_inline (hroot : (Json.obj root).DistinctKeys)
    (hx : "x-nullable" ∉ Fields.keys (objectAt "responses" root)) {a b : Json} (hab : Alike a b) :
    Alike (Bundle.inline (normalComponents root) a)
      (Bundle.inline (normalComponents (bare root)) b) :=
  alike_follow (alike_resolve? hroot hx) Bundle.maxHops hab

/-! ## Operations that look the same -/

theorem itemsAt_bareItem (item : List (String × Json)) :
    itemsAt "parameters" (bareItem item) = itemsAt "parameters" item := by
  rw [itemsAt, get?_bareItem, itemsAt]
  cases Fields.get? "parameters" item <;> rfl

theorem itemsAt_without (op : List (String × Json)) :
    itemsAt "parameters" (without mediaKeys op) = itemsAt "parameters" op := by
  rw [itemsAt, get?_without, if_neg (by decide), itemsAt]

theorem operationInputs_bare (root item op : List (String × Json)) :
    operationInputs (bare root) (bareItem item) (without mediaKeys op) =
      operationInputs root item op := by
  have hobject : objectAt "parameters" (bare root) = objectAt "parameters" root :=
    objectAt_bare (by decide) (by decide)
  simp only [operationInputs, inputsOf, sharedBody, inlined, itemsAt_bareItem, itemsAt_without,
    hobject]

section
variable (hroot : (Json.obj root).DistinctKeys)
  (hx : "x-nullable" ∉ Fields.keys (objectAt "responses" root))
include hroot hx

theorem parameters_viewItem_bare (hnd : (Fields.keys item).Nodup) :
    (viewItem (bare root) (bareItem item)).parameters = (viewItem root item).parameters := by
  have hobject : objectAt "parameters" (bare root) = objectAt "parameters" root :=
    objectAt_bare (by decide) (by decide)
  rw [parameters_viewItem hnd, parameters_viewItem (by rwa [keys_bareItem]), sharedProper, inlined,
    itemsAt_bareItem, hobject, sharedProper, inlined]
  exact List.filterMap_congr fun param _ =>
    (alike_inline hroot hx (.refl (move param))).parameter.symm

theorem agree_viewVisit (hitem : (Json.obj item).DistinctKeys) (hop : (Json.obj op).DistinctKeys)
    (path : String) (m : Method) :
    (viewVisit root item op path m).Agree
      (viewVisit (bare root) (bareItem item) (without mediaKeys op) path m) := by
  have hbare := distinctKeys_without mediaKeys hop
  have hsame : ∀ value, Alike (Bundle.inline (normalComponents root) value)
      (Bundle.inline (normalComponents (bare root)) value) :=
    fun value => alike_inline hroot hx (.refl value)
  have hother : ∀ k, k ∉ ["parameters", "requestBody", "responses", "x-nullable", "nullable"] →
      k ∉ mediaKeys → Fields.get? k (normalOperation root item op) =
        Fields.get? k (normalOperation (bare root) (bareItem item) (without mediaKeys op)) := by
    intro k hk hmedia
    rw [get?_normalOperation_other hop.keys hk hmedia,
      get?_normalOperation_other hbare.keys hk hmedia, get?_without, if_neg hmedia]
  have hid : (viewOperation root item op).id =
      (viewOperation (bare root) (bareItem item) (without mediaKeys op)).id := by
    rw [viewOperation_id, viewOperation_id, Fields.read, Fields.read,
      hother _ (by decide) (by decide)]
  have htags : (viewOperation root item op).tags =
      (viewOperation (bare root) (bareItem item) (without mediaKeys op)).tags := by
    rw [viewOperation_tags, viewOperation_tags, Fields.readList, Fields.readList,
      hother _ (by decide) (by decide)]
  have hparameters : (viewOperation root item op).parameters =
      (viewOperation (bare root) (bareItem item) (without mediaKeys op)).parameters := by
    rw [parameters_viewOperation hop.keys, parameters_viewOperation hbare.keys,
      operationInputs_bare]
    exact List.filterMap_congr fun param _ => (hsame (move param)).parameter
  have hbody : (viewOperation root item op).bodySchema? =
      (viewOperation (bare root) (bareItem item) (without mediaKeys op)).bodySchema? := by
    rw [bodySchema?_viewOperation hop.keys, bodySchema?_viewOperation hbare.keys,
      operationInputs_bare, get?_without, if_neg (by decide)]
    exact congrArg (Option.bind _) (funext fun value => (hsame (move value)).body)
  have hresponse : (viewOperation root item op).responseSchema? =
      (viewOperation (bare root) (bareItem item) (without mediaKeys op)).responseSchema? := by
    have hobject : objectAt "responses" (without mediaKeys op) = objectAt "responses" op := by
      rw [objectAt, get?_without, if_neg (by decide), objectAt]
    rw [responseSchema?_viewOperation hop, responseSchema?_viewOperation hbare]
    refine congrArg Option.join (findSome?_congr fun status _ => ?_)
    rw [sourceResponse, sourceResponse, hobject]
    cases hget : Fields.get? status (objectAt "responses" op) with
    | none => rfl
    | some value =>
      have hkeys := (distinctKeys_objectAt hop "responses").field (Fields.mem_of_get? hget)
      exact (alike_inline hroot hx (alike_response _ _ hkeys)).response
  refine ⟨rfl, rfl, ?_, htags, ?_, congrArg (Option.map Schema.unwrapNullable) hbody,
    congrArg (Option.map Schema.unwrapNullable) hresponse⟩
  · rw [viewVisit_operation, viewVisit_operation, Operation.explicitId?, hid, Operation.explicitId?]
  · rw [viewVisit_operation, viewVisit_operation, viewVisit_shared, viewVisit_shared, hparameters,
      parameters_viewItem_bare hroot hx hitem.keys]

/-- **The digest of a document is that of the bare document.** -/
theorem digest_bare : (viewDocument (bare root)).digest = (viewDocument root).digest := by
  have hpaths := distinctKeys_objectAt hroot "paths"
  refine (Document.digest_congr ?_ ?_).symm
  · rw [viewDocument_schemas, viewDocument_schemas, Fields.readTable, Fields.readTable,
      get?_normalComponents, get?_normalComponents, componentsAt_bare (by decide)]
  · have hpathsBare : (Fields.keys (objectAt "paths" (bare root))).Nodup := by
      rw [objectAt_paths_bare, Fields.keys_mapValues]
      exact hpaths.keys
    rw [visits_viewDocument hpaths.keys, visits_viewDocument hpathsBare, objectAt_paths_bare,
      Fields.mapValues, List.flatMap_map]
    refine forall₂_flatMap fun field hfield => ?_
    obtain ⟨path, value⟩ := field
    cases value with
    | obj item =>
      have hitem := hpaths.field hfield
      simp only [Json.mapFields, Json.fields?, Option.map_some, Option.getD_some]
      rw [visits_viewItem hitem.keys, visits_viewItem (by rw [keys_bareItem]; exact hitem.keys)]
      refine forall₂_filterMap fun m _ => ?_
      rw [get?_bareItem]
      cases hget : Fields.get? m.key item with
      | none => exact .none
      | some value =>
        rw [Option.map_some, if_pos (key_mem_methods m).1]
        cases value with
        | obj op =>
          have hop := hitem.field (Fields.mem_of_get? hget)
          exact .some (agree_viewVisit hroot hx hitem hop path m)
        | _ => exact .none
    | _ =>
      simp only [Json.mapFields, Json.fields?, Option.map_none, Option.getD_none]
      exact .nil

end

/-- **Documents that only differ in media types and servers have the same digest.** -/
theorem digest_of_bare_eq {other : List (String × Json)} (h : OldDocument root)
    (hother : (Json.obj other).DistinctKeys) (heq : bare other = bare root) (origin : String) :
    ((Json.obj other).document? origin).map Document.digest =
      ((Json.obj root).document? origin).map Document.digest := by
  have hget : ∀ k, k ≠ "paths" → k ∉ serverKeys → Fields.get? k other = Fields.get? k root := by
    intro k hpaths hserver
    rw [← get?_bare_of_ne hpaths hserver, heq, get?_bare_of_ne hpaths hserver]
  have hpaths : Fields.keys (objectAt "paths" other) = Fields.keys (objectAt "paths" root) := by
    rw [← Fields.keys_mapValues (Json.mapFields bareItem), ← objectAt_paths_bare, heq,
      objectAt_paths_bare, Fields.keys_mapValues]
  have hresponses : objectAt "responses" other = objectAt "responses" root := by
    rw [objectAt, hget _ (by decide) (by decide), objectAt]
  have hversion : ∀ key start, key ≠ "paths" → key ∉ serverKeys →
      Dialect.hasVersion key start (.obj other) = Dialect.hasVersion key start (.obj root) :=
    fun key start hk hserver =>
      congrArg (fun value : Option Json => (value.bind Json.str?).any (Text.startsWith start))
        (hget key hk hserver)
  have hdialect : Dialect.ofJson (.obj other) = .swagger2 := by
    rw [← h.dialect, Dialect.ofJson, hversion _ _ (by decide) (by decide),
      hversion _ _ (by decide) (by decide), Dialect.ofJson]
  have hflag := (lacks_objectAt h.flagless "paths").keys
  have hflagResponses := (lacks_objectAt h.flagless "responses").keys
  rw [h.document?_eq, document?_eq hdialect (hpaths ▸ hflag), Option.map_some, Option.map_some,
    ← digest_bare hother (hresponses ▸ hflagResponses), heq,
    digest_bare h.distinct hflagResponses]

end ApiDigest.Upgrade
