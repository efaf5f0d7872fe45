/-
  The names in the tables of an old document.

  Definitions, properties and responses stand in tables whose keys are names that the
  document chooses.  Moving goes through tables and nodes alike, so a name that is the
  older null flag is taken for one.

  * `Upgrade.TableAt` relates where a table stands in a document and in the upgraded one;
  * `Upgrade.at?_move` and `Upgrade.mem_keys_moveObject` are what stands at an address,
    and under which names, once pointers are moved;
  * `Upgrade.keepsNames_iff` says when every table keeps its names, and which names it
    has otherwise.
-/
import ApiDigest.Dialect
import ApiDigest.Proofs.Addresses
import ApiDigest.Proofs.MovedPointers

namespace ApiDigest.Upgrade

open Json (Hop)

variable {root fields table : List (String × Json)} {value part : Json} {name : String}
  {address source target : List Hop}

/-! ## Moved values -/

/-- **The names of a moved object**: the older null flag has become the newer one. -/
theorem mem_keys_moveObject (hnd : (Fields.keys fields).Nodup) :
    name ∈ Fields.keys (moveObject (moveFields fields)) ↔
      name ≠ "x-nullable" ∧ (name ∈ Fields.keys fields ∨
        name = "nullable" ∧ "x-nullable" ∈ Fields.keys fields) := by
  rw [← Fields.contains_iff, Fields.contains, get?_moveObject_eq hnd, movedAt,
    ← Fields.contains_iff, ← Fields.contains_iff, Fields.contains, Fields.contains]
  split_ifs with hx hn
  · simp [hx]
  · simp [hn]
  · simp [hx, hn]

/-- What is on the way to an object is no text, so it is moved as a value. -/
theorem moveAt_of_at? (key : String) (h : part.at? address = some (.obj fields)) :
    moveAt key part = move part := by
  cases part with
  | str text => exact absurd (Json.mem_objects_of_at? h) List.not_mem_nil
  | _ => unfold moveAt; split_ifs <;> rfl

/-- **An object is moved where it stands**, unless the older null flag is on the way. -/
theorem at?_move (hvalue : value.DistinctKeys) (hflag : Hop.key "x-nullable" ∉ address)
    (h : value.at? address = some (.obj fields)) :
    (move value).at? address = some (move (.obj fields)) := by
  induction address generalizing value with
  | nil => rw [Option.some.inj h]; rfl
  | cons hop address ih =>
    obtain ⟨hhop, hrest⟩ := not_or.1 (mt List.mem_cons.2 hflag)
    obtain ⟨part, hpart, hat⟩ := Option.bind_eq_some_iff.1 h
    have hstep : value.at? [hop] = some part := by rw [Json.at?_cons, hpart]; rfl
    have hmoved := ih (hvalue.at? hstep) hrest hat
    rcases Json.part?_cases hpart with
      ⟨object, key, rfl, rfl, hget⟩ | ⟨items, position, rfl, rfl, hget⟩
    · have hkey : key ≠ "x-nullable" := fun hkey => hhop (congrArg Hop.key hkey).symm
      have hnext : Fields.get? key (moveObject (moveFields object)) = some (move part) := by
        rw [get?_moveObject_eq hvalue.keys, movedAt, if_neg hkey]
        split_ifs with hnull
        · rw [← hnull, hget]; rfl
        · rw [hget, Option.map_some, moveAt_of_at? key hat]
      rw [move_obj, Json.at?_key, hnext]
      exact hmoved
    · have hnext : (items.map move)[position]? = some (move part) := by
        rw [List.getElem?_map, hget]; rfl
      rw [move_arr, Json.at?_index, hnext]
      exact hmoved

/-- No object of an upgraded document has the older null flag. -/
theorem lacks_upgrade (hroot : (Json.obj root).DistinctKeys) :
    (Json.obj root).upgrade.Lacks "x-nullable" :=
  fun object hobject => (moved_move (distinctKeys_document hroot) object hobject).1

/-! ## Tables -/

/-- The addresses of the nodes below a definition.  At the key of properties a node has a
    table, whose values are nodes again; all else that is in a node is taken for one. -/
inductive NodeAt : List Hop → Prop
  | root : NodeAt []
  | property {steps : List Hop} (name : String) :
      NodeAt steps → NodeAt (steps ++ [.key "properties", .key name])
  | part {steps : List Hop} {hop : Hop} :
      NodeAt steps → hop ≠ .key "properties" → NodeAt (steps ++ [hop])

/-- Where the tables of names stand, in an old document and in the upgraded one: the
    definitions, the properties of each of their nodes, the reusable responses, and the
    responses of each operation. -/
inductive TableAt : List Hop → List Hop → Prop
  | definitions : TableAt [.key "definitions"] [.key "components", .key "schemas"]
  | properties (name : String) {steps : List Hop} (hsteps : NodeAt steps) :
      TableAt (.key "definitions" :: .key name :: (steps ++ [.key "properties"]))
        (.key "components" :: .key "schemas" :: .key name :: (steps ++ [.key "properties"]))
  | responses : TableAt [.key "responses"] [.key "components", .key "responses"]
  | operation (path : String) {m : String} (hm : m ∈ methods) :
      TableAt [.key "paths", .key path, .key m, .key "responses"]
        [.key "paths", .key path, .key m, .key "responses"]

/-- An upgraded document has every table of the document where it belongs, with the same
    names. -/
def KeepsNames (root : List (String × Json)) : Prop :=
  ∀ source target, TableAt source target →
    ∀ table, (Json.obj root).at? source = some (.obj table) →
      ∃ moved, (Json.obj root).upgrade.at? target = some (.obj moved) ∧
        ∀ name, name ∈ Fields.keys moved ↔ name ∈ Fields.keys table

/-- No name in a table, or on the way to one, is the older null flag. -/
def NoFlagNames (root : List (String × Json)) : Prop :=
  ∀ source target, TableAt source target →
    ∀ table, (Json.obj root).at? source = some (.obj table) →
      Hop.key "x-nullable" ∉ source ∧ "x-nullable" ∉ Fields.keys table

theorem TableAt.flag_iff (h : TableAt source target) :
    Hop.key "x-nullable" ∈ target ↔ Hop.key "x-nullable" ∈ source := by
  cases h <;> simp

/-! ## Documents -/

theorem at?_components (root : List (String × Json)) (key : String) (address : List Hop) :
    (Json.obj (document root)).at? (.key "components" :: .key key :: address) =
      (componentsAt root key).bind fun part => part.at? address := by
  rw [Json.at?_key, get?_document_components, Option.bind_some, Json.at?_key, get?_components]

theorem at?_operation_responses (hroot : (Json.obj root).DistinctKeys) {path m : String}
    (hm : m ∈ methods)
    (h : (Json.obj root).at? [.key "paths", .key path, .key m, .key "responses"] =
      some (.obj table)) :
    ∃ produces, (Json.obj (document root)).at? [.key "paths", .key path, .key m, .key "responses"] =
      some (.obj (Fields.mapValues (response produces) table)) := by
  obtain ⟨_, value, hobject, hpaths, h⟩ := Json.at?_key_eq_some_iff.1 h
  obtain rfl := Json.obj.inj hobject
  obtain ⟨items, value, rfl, hitem, h⟩ := Json.at?_key_eq_some_iff.1 h
  obtain ⟨item, value, rfl, hop, h⟩ := Json.at?_key_eq_some_iff.1 h
  obtain ⟨op, value, rfl, hresponses, h⟩ := Json.at?_key_eq_some_iff.1 h
  obtain rfl := Option.some.inj h
  have hitems := hroot.get? hpaths
  have hitemKeys := hitems.get? hitem
  have hmParameters : m ≠ "parameters" := fun e => absurd (e ▸ hm) (by decide)
  -- the path item, the operation and its responses, each in place of its source
  have hnewItem : Fields.get? path (paths root) =
      some (.obj (pathItem (objectAt "parameters" root) (texts "produces" root) item)) := by
    rw [paths, Fields.get?_filterMapValues _ (distinctKeys_objectAt hroot "paths").keys, objectAt,
      hpaths]
    show (Fields.get? path items).bind _ = _
    rw [hitem]
    rfl
  have hnewOp := (get?_pathItem (objectAt "parameters" root) (texts "produces" root)
    hitemKeys.keys).2 m
  rw [pathItemAt, if_neg hmParameters, if_pos hm, hop] at hnewOp
  have hnewResponses := (get?_operation (sharedBody (objectAt "parameters" root) item)
    (objectAt "parameters" root) (texts "produces" root)
    (hitemKeys.get? hop).keys).2 "responses"
  rw [operationAt, if_pos rfl, hresponses] at hnewResponses
  refine ⟨producesOf (texts "produces" root) op, ?_⟩
  rw [Json.at?_key, get?_document_paths, Option.bind_some, Json.at?_key, hnewItem,
    Option.bind_some, Json.at?_key, hnewOp]
  show (Json.obj (operation _ _ _ _)).at? _ = _
  rw [Json.at?_key, hnewResponses]
  rfl

/-- **A table stands in the upgraded document with its names**, before pointers are moved. -/
theorem TableAt.exists_written (h : TableAt source target) (hroot : (Json.obj root).DistinctKeys)
    (hat : (Json.obj root).at? source = some (.obj table)) :
    ∃ written, (Json.obj (document root)).at? target = some (.obj written) ∧
      Fields.keys written = Fields.keys table := by
  cases h with
  | definitions =>
    refine ⟨table, ?_, rfl⟩
    rw [at?_components]
    exact hat
  | properties name =>
    refine ⟨table, ?_, rfl⟩
    rw [at?_components]
    exact hat
  | responses =>
    refine ⟨Fields.mapValues (response (texts "produces" root)) table, ?_,
      Fields.keys_mapValues _ _⟩
    have hget : Fields.get? "responses" root = some (.obj table) := by
      rw [Json.at?_key] at hat
      simpa using hat
    rw [at?_components, componentsAt]
    simp [hget, Json.fields?]
  | operation path hm =>
    obtain ⟨produces, hwritten⟩ := at?_operation_responses hroot hm hat
    exact ⟨_, hwritten, Fields.keys_mapValues _ _⟩

/-- What comes of a table, by whether the older null flag is on the way to it. -/
theorem TableAt.names (h : TableAt source target) (hroot : (Json.obj root).DistinctKeys)
    (hat : (Json.obj root).at? source = some (.obj table)) :
    (Hop.key "x-nullable" ∈ source → (Json.obj root).upgrade.at? target = none) ∧
      (Hop.key "x-nullable" ∉ source →
        ∃ moved, (Json.obj root).upgrade.at? target = some (.obj moved) ∧
          ∀ name, name ∈ Fields.keys moved ↔ name ≠ "x-nullable" ∧
            (name ∈ Fields.keys table ∨ name = "nullable" ∧ "x-nullable" ∈ Fields.keys table)) := by
  have hdocument := distinctKeys_document hroot
  refine ⟨fun hflag => ?_, fun hflag => ?_⟩
  · rw [Option.eq_none_iff_forall_ne_some]
    intro part hpart
    exact (lacks_upgrade hroot).notMem_address hpart (h.flag_iff.2 hflag)
  · obtain ⟨written, hwritten, hkeys⟩ := h.exists_written hroot hat
    have hmoved := at?_move hdocument (mt h.flag_iff.1 hflag) hwritten
    rw [move_obj] at hmoved
    refine ⟨_, hmoved, fun name => ?_⟩
    rw [mem_keys_moveObject (hdocument.at? hwritten).keys, hkeys]

theorem keepsNames_of_noFlagNames (hroot : (Json.obj root).DistinctKeys) (h : NoFlagNames root) :
    KeepsNames root := by
  intro source target htable table hat
  obtain ⟨hsource, hflag⟩ := h source target htable table hat
  obtain ⟨moved, hmoved, hnames⟩ := (htable.names hroot hat).2 hsource
  refine ⟨moved, hmoved, fun name => ?_⟩
  rw [hnames]
  constructor
  · rintro ⟨-, hname | ⟨-, hname⟩⟩
    · exact hname
    · exact absurd hname hflag
  · exact fun hname => ⟨fun e => hflag (e ▸ hname), Or.inl hname⟩

theorem noFlagNames_of_keepsNames (hroot : (Json.obj root).DistinctKeys) (h : KeepsNames root) :
    NoFlagNames root := by
  intro source target htable table hat
  obtain ⟨moved, hmoved, hnames⟩ := h source target htable table hat
  have hlacks := lacks_upgrade hroot
  refine ⟨fun hflag => hlacks.notMem_address hmoved (htable.flag_iff.2 hflag), fun hflag => ?_⟩
  exact hlacks _ (Json.mem_objects_of_at? hmoved) ((hnames _).2 hflag)

/-- **The names of the tables of a document.**  A table keeps them but for the older null
    flag, which is the newer one in the upgraded document; with that flag on the way to it
    the table is gone.  So all names are kept just if none of them is the flag. -/
theorem keepsNames_iff (hroot : (Json.obj root).DistinctKeys) :
    (∀ source target, TableAt source target →
      ∀ table, (Json.obj root).at? source = some (.obj table) →
        (Hop.key "x-nullable" ∈ source → (Json.obj root).upgrade.at? target = none) ∧
        (Hop.key "x-nullable" ∉ source →
          ∃ moved, (Json.obj root).upgrade.at? target = some (.obj moved) ∧
            ∀ name, name ∈ Fields.keys moved ↔ name ≠ "x-nullable" ∧
              (name ∈ Fields.keys table ∨ name = "nullable" ∧ "x-nullable" ∈ Fields.keys table))) ∧
      (KeepsNames root ↔ NoFlagNames root) :=
  ⟨fun _ _ htable _ hat => htable.names hroot hat,
    noFlagNames_of_keepsNames hroot, keepsNames_of_noFlagNames hroot⟩

/-- The columns of a data base, with a property that is called like the null flag. -/
def columnProperties : List (String × Json) := [
  ("x-nullable", .obj [("type", .str "boolean")]),
  ("name", .obj [("type", .str "string")])]

def columns : List (String × Json) := [
  ("swagger", .str "2.0"),
  ("definitions", .obj [
    ("Column", .obj [("type", .str "object"), ("properties", .obj columnProperties)])])]

theorem tableAt_columnProperties :
    TableAt [.key "definitions", .key "Column", .key "properties"]
      [.key "components", .key "schemas", .key "Column", .key "properties"] :=
  .properties "Column" .root

theorem keepsNames_iff_columns :
    (Json.obj columns).DistinctKeys ∧
      (∃ moved, (Json.obj columns).upgrade.at? [.key "components", .key "schemas"] =
          some (.obj moved) ∧ ∀ name, name ∈ Fields.keys moved ↔ name = "Column") ∧
      (∃ moved, (Json.obj columns).upgrade.at?
          [.key "components", .key "schemas", .key "Column", .key "properties"] =
            some (.obj moved) ∧ ∀ name, name ∈ Fields.keys moved ↔ name ∈ ["name", "nullable"]) ∧
      (KeepsNames columns ↔ NoFlagNames columns) := by
  have hcolumns : (Json.obj columns).DistinctKeys := by decide +kernel
  obtain ⟨htables, hiff⟩ := keepsNames_iff hcolumns
  obtain ⟨schemas, hschemas, hnames⟩ := (htables _ _ .definitions _ rfl).2 (by decide)
  obtain ⟨properties, hproperties, hmoved⟩ :=
    (htables _ _ tableAt_columnProperties columnProperties rfl).2 (by decide)
  refine ⟨hcolumns, ⟨schemas, hschemas, fun name => ?_⟩, ⟨properties, hproperties, fun name => ?_⟩,
    hiff⟩
  · rw [hnames]
    constructor
    · rintro ⟨-, hname | ⟨-, hname⟩⟩
      · simpa using hname
      · exact absurd hname (by decide)
    · rintro rfl
      exact ⟨by decide, Or.inl (by decide)⟩
  · rw [hmoved]
    constructor
    · rintro ⟨hflag, hname | ⟨rfl, -⟩⟩
      · simp [columnProperties, hflag] at hname
        simp [hname]
      · decide
    · simp only [List.mem_cons, List.not_mem_nil, or_false]
      rintro (rfl | rfl) <;> decide

/-- A property that is called like the null flag is called otherwise afterwards. -/
theorem name_lost_columns :
    Dialect.ofJson (.obj columns) = .swagger2 ∧ (Json.obj columns).DistinctKeys ∧
      ¬ KeepsNames columns := by
  have hcolumns : (Json.obj columns).DistinctKeys := by decide +kernel
  refine ⟨by decide +kernel, hcolumns, fun hkeeps => ?_⟩
  have hflag := (noFlagNames_of_keepsNames hcolumns hkeeps _ _ tableAt_columnProperties
    columnProperties rfl).2
  exact hflag List.mem_cons_self

end ApiDigest.Upgrade
