/-
  Every name can be pointed at.

  A name goes into a pointer with its tildes and slashes escaped, and two replacements
  undo that: first of the slashes' marks, then of the tildes'.  In this order no mark is
  made up of what another one leaves behind.

  * `Pointer.escape_eq` is escaping as two replacements, and `Pointer.unescape_escape`
    says that it is undone;
  * `Bundle.at?_bundle_pointer` is what bundling puts into a slot with a pointer;
  * `Bundle.pointers_to_name` says of all the tables that a pointer to a name leads to
    the entry of that name, and to no other.
-/
import ApiDigest.Proofs.Addresses
import ApiDigest.Proofs.Bundled
import ApiDigest.Proofs.MovedPointers
import ApiDigest.Proofs.ViewedNodes

namespace ApiDigest

/-! ## Escaping -/

namespace Pointer

variable {mark char c : Char} {text : List Char} {name : String}

/-- Replaces a character by a text. -/
def replaceChar (char : Char) (new text : List Char) : List Char :=
  text.flatMap fun c => if c = char then new else [c]

/-- The characters of a name as they stand in a pointer: each tilde is replaced by `~0`,
    and then each slash by `~1`. -/
theorem escape_eq (name : String) :
    (escape name).toList = replaceChar '/' ['~', '1'] (replaceChar '~' ['~', '0'] name.toList) := by
  rw [escape, String.toList_ofList, replaceChar, replaceChar, List.flatMap_assoc]
  refine congrArg (List.flatMap · name.toList) (funext fun c => ?_)
  rw [escapeChar]
  split_ifs with htilde hslash
  · rfl
  · subst hslash; rfl
  · simp [hslash]

theorem replaceMark_cons (h : c ≠ '~') (text : List Char) :
    replaceMark mark char (c :: text) = c :: replaceMark mark char text := by
  cases text with
  | nil => rfl
  | cons d rest => simp [replaceMark, h]

theorem replaceMark_mark (text : List Char) :
    replaceMark mark char ('~' :: mark :: text) = char :: replaceMark mark char text := by
  simp [replaceMark]

/-- The marks of tildes are no marks of slashes, and all slashes are gone. -/
theorem replaceMark_slash (text : List Char) :
    replaceMark '1' '/' (text.flatMap escapeChar) = replaceChar '~' ['~', '0'] text := by
  induction text with
  | nil => rfl
  | cons c text ih =>
    rw [List.flatMap_cons, escapeChar, replaceChar, List.flatMap_cons, ← replaceChar]
    split_ifs with htilde hslash
    · have hzero : replaceMark '1' '/' ('~' :: '0' :: text.flatMap escapeChar) =
          '~' :: replaceMark '1' '/' ('0' :: text.flatMap escapeChar) := by simp [replaceMark]
      rw [List.cons_append, List.singleton_append, hzero, replaceMark_cons (by decide), ih]
      rfl
    · rw [List.cons_append, List.singleton_append, replaceMark_mark, ih, hslash]
      rfl
    · rw [List.singleton_append, replaceMark_cons htilde, ih]
      rfl

theorem replaceMark_tilde (text : List Char) :
    replaceMark '0' '~' (replaceChar '~' ['~', '0'] text) = text := by
  induction text with
  | nil => rfl
  | cons c text ih =>
    rw [replaceChar, List.flatMap_cons, ← replaceChar]
    split_ifs with htilde
    · rw [List.cons_append, List.singleton_append, replaceMark_mark, ih, htilde]
    · rw [List.singleton_append, replaceMark_cons htilde, ih]

/-- **A name is read back from its escaped form.** -/
theorem unescape_escape (name : String) : unescape (escape name) = name := by
  rw [unescape, unescapeChars, escape, String.toList_ofList, replaceMark_slash, replaceMark_tilde,
    String.ofList_toList]

theorem nameUnder?_escape (start name : String) :
    nameUnder? start (start ++ escape name) = some name := by
  rw [nameUnder?, Text.afterStart?_append, Option.map_some, unescape_escape]

end Pointer

theorem Bundle.kindAndName?_escape {kind : String} (hkind : '/' ∉ kind.toList) (name : String) :
    kindAndName? (kind ++ "/" ++ Pointer.escape name) = some (kind, name) := by
  rw [kindAndName?_slash hkind, Pointer.unescape_escape]

/-! ## Moved pointers -/

namespace Upgrade

theorem movePointer_definitions (name : String) :
    movePointer ("#/definitions/" ++ name) = Pointer.schemaTable ++ name := by
  simp [movePointer, movedTables, Text.afterStart?_append, Pointer.schemaTable]

/-- A moved node points at the definition that it pointed at before. -/
theorem tableName?_move {fields : List (String × Json)} (hnd : (Fields.keys fields).Nodup)
    {name : String}
    (href : Fields.get? "$ref" fields = some (.str ("#/definitions/" ++ Pointer.escape name))) :
    ∃ node, Schema.ofJson? (move (.obj fields)) = some node ∧ node.tableName? = some name := by
  have hmoved : Fields.get? "$ref" (moveObject (moveFields fields)) =
      some (.str (Pointer.schemaTable ++ Pointer.escape name)) := by
    rw [get?_moveObject hnd (by decide) (by decide), href, Option.map_some, moveAt, if_pos rfl,
      ← movePointer_definitions]
    rfl
  have hpointer : (Schema.ofFields (moveObject (moveFields fields))).pointer =
      some (Pointer.schemaTable ++ Pointer.escape name) := by
    show (Fields.get? "$ref" _).bind Json.str? = _
    rw [hmoved]
    rfl
  refine ⟨_, by rw [move_obj, Schema.ofJson?_obj], ?_⟩
  rw [Schema.tableName?, hpointer, Option.bind_some, Pointer.nameUnder?_escape]

end Upgrade

/-! ## Bundled pointers -/

namespace Bundle

open Json (Hop PrefixFree)

theorem prefixFree_isOperationSlot : PrefixFree isOperationSlot := by
  intro steps more hsteps hmore
  obtain ⟨step, more, rfl⟩ := List.exists_cons_of_ne_nil hmore
  unfold isOperationSlot at hsteps
  split at hsteps
  · rfl
  · simp only [decide_eq_true_eq] at hsteps
    subst hsteps
    cases step <;> cases more <;> rfl
  · rfl
  · cases hsteps

theorem prefixFree_isItemSlot : PrefixFree isItemSlot := by
  intro steps more hsteps hmore
  unfold isItemSlot at hsteps
  split at hsteps
  · simp only [decide_eq_true_eq] at hsteps
    subst hsteps
    obtain ⟨step, more, rfl⟩ := List.exists_cons_of_ne_nil hmore
    rfl
  · rename_i key rest _
    obtain ⟨hkey, hrest⟩ := Bool.and_eq_true_iff.1 hsteps
    have hbelow := prefixFree_isOperationSlot rest more hrest hmore
    -- a slot of an operation starts at a key, so it is not taken for a parameter of the item
    rcases rest with _ | ⟨name | _, rest⟩
    · cases hrest
    · exact Bool.and_eq_false_iff.2 (Or.inr hbelow)
    · cases hrest
  · cases hsteps

/-- No slot is inside another one. -/
theorem prefixFree_isSlot : PrefixFree isSlot := by
  intro steps more hsteps hmore
  unfold isSlot at hsteps
  split at hsteps
  · obtain ⟨hpaths, hitem⟩ := Bool.and_eq_true_iff.1 hsteps
    exact Bool.and_eq_false_iff.2 (Or.inr (prefixFree_isItemSlot _ more hitem hmore))
  · cases hsteps

variable {document entry : Json} {slot : List Hop} {kind name : String}

/-- **A slot with a pointer gets the entry that is named**, if that points nowhere. -/
theorem at?_bundle_pointer (hdocument : document.DistinctKeys) (hkind : kind ∈ kinds)
    (hslot : isSlot (slot.map Hop.step) = true)
    (hat : document.at? slot =
      some (pointer (Upgrade.componentPointer kind (Pointer.escape name))))
    (hentry : document.at? [.key "components", .key kind, .key name] = some entry)
    (hplain : entry.get? "$ref" = none) : document.bundle.at? slot = some entry := by
  have htarget : target? (document.fieldsAt "components")
      (pointer (Upgrade.componentPointer kind (Pointer.escape name))) = some entry := by
    obtain ⟨fields, value, rfl, hcomponents, h⟩ := Json.at?_key_eq_some_iff.1 hentry
    obtain ⟨components, value, rfl, htable, h⟩ := Json.at?_key_eq_some_iff.1 h
    obtain ⟨table, value, rfl, hname, h⟩ := Json.at?_key_eq_some_iff.1 h
    obtain rfl := Option.some.inj h
    have hfields : (Json.obj fields).fieldsAt "components" = components := by
      rw [Json.fieldsAt, Json.get?_obj, hcomponents]; rfl
    show resolve? _ _ = _
    rw [hfields, resolve?_componentPointer hkind, Pointer.unescape_escape, htable]
    exact hname
  have hstuck : target? (document.fieldsAt "components") entry = none :=
    target?_of_text? (by rw [Json.text?, hplain]; rfl)
  rw [bundle_eq_changeAt hdocument, Json.at?_changeAt _ prefixFree_isSlot hslot, hat,
    Option.map_some, inline_of_target htarget hstuck]

/-- **Every name can be pointed at.**  In its escaped form it is that of the schema, of the
    sibling property and, once moved, of the definition that a node points at; and bundling
    puts the reusable part of that name in the place of a pointer to it.  A pointer to
    another name is one to another entry. -/
theorem pointers_to_name (name : String) :
    (Pointer.escape name).toList = Pointer.replaceChar '/' ['~', '1']
      (Pointer.replaceChar '~' ['~', '0'] name.toList) ∧
    (∀ schema : Schema, schema.pointer = some (Pointer.schemaTable ++ Pointer.escape name) →
      schema.tableName? = some name) ∧
    (∀ schema : Schema, schema.pointer = some (Pointer.siblingTable ++ Pointer.escape name) →
      schema.siblingName? = some name) ∧
    (∀ fields, (Fields.keys fields).Nodup →
      Fields.get? "$ref" fields = some (.str ("#/definitions/" ++ Pointer.escape name)) →
      ∃ node, Schema.ofJson? (Upgrade.move (.obj fields)) = some node ∧
        node.tableName? = some name) ∧
    (∀ (document : Json) (kind : String) (slot : List Hop) (entry : Json),
      document.DistinctKeys → kind ∈ kinds → isSlot (slot.map Hop.step) = true →
      document.at? slot =
        some (pointer (Upgrade.componentPointer kind (Pointer.escape name))) →
      document.at? [.key "components", .key kind, .key name] = some entry →
      entry.get? "$ref" = none → document.bundle.at? slot = some entry) ∧
    ∀ other, other ≠ name →
      (∀ start, Pointer.nameUnder? start (start ++ Pointer.escape other) ≠
        Pointer.nameUnder? start (start ++ Pointer.escape name)) ∧
      ∀ kind ∈ kinds, kindAndName? (kind ++ "/" ++ Pointer.escape other) ≠
        kindAndName? (kind ++ "/" ++ Pointer.escape name) := by
  refine ⟨Pointer.escape_eq name, fun schema h => ?_, fun schema h => ?_,
    fun fields hnd href => Upgrade.tableName?_move hnd href,
    fun document kind slot entry hdocument hkind hslot hat hentry hplain =>
      at?_bundle_pointer hdocument hkind hslot hat hentry hplain,
    fun other hne => ⟨fun start heq => hne ?_, fun kind hkind heq => hne ?_⟩⟩
  · rw [Schema.tableName?, h, Option.bind_some, Pointer.nameUnder?_escape]
  · rw [Schema.siblingName?, h, Option.bind_some, Pointer.nameUnder?_escape]
  · rw [Pointer.nameUnder?_escape, Pointer.nameUnder?_escape] at heq
    exact Option.some.inj heq
  · have hslash := slash_notMem_of_mem_kinds hkind
    rw [kindAndName?_escape hslash, kindAndName?_escape hslash] at heq
    exact (Prod.mk.inj (Option.some.inj heq)).2

/-- Reusable parts of every kind whose name has marks and a slash in it, and an operation
    that has them. -/
def labels : Json := .obj [
  ("openapi", .str "3.0.0"),
  ("components", .obj [
    ("parameters", .obj [("~1/~0", .obj [("name", .str "label"), ("in", .str "query")])]),
    ("requestBodies", .obj [("~1/~0", .obj [("required", .bool true)])]),
    ("responses", .obj [("~1/~0", .obj [("description", .str "Labelled.")])])]),
  ("paths", .obj [
    ("/labels", .obj [
      ("put", .obj [
        ("parameters", .arr [pointer "#/components/parameters/~01~1~00"]),
        ("requestBody", pointer "#/components/requestBodies/~01~1~00"),
        ("responses", .obj [("200", pointer "#/components/responses/~01~1~00")])])])])]

theorem pointers_to_name_labels :
    labels.DistinctKeys ∧
      (Schema.ofFields [("$ref", .str "#/components/schemas/~01~1~00")]).tableName? =
        some "~1/~0" ∧
      (Schema.ofFields [("$ref", .str "#/properties/~01~1~00")]).siblingName? = some "~1/~0" ∧
      (∃ node, Schema.ofJson? (Upgrade.move (.obj [("$ref", .str "#/definitions/~01~1~00")])) =
        some node ∧ node.tableName? = some "~1/~0") ∧
      labels.bundle.at? [.key "paths", .key "/labels", .key "put", .key "parameters", .index 0] =
        some (.obj [("name", .str "label"), ("in", .str "query")]) ∧
      labels.bundle.at? [.key "paths", .key "/labels", .key "put", .key "requestBody"] =
        some (.obj [("required", .bool true)]) ∧
      labels.bundle.at? [.key "paths", .key "/labels", .key "put", .key "responses", .key "200"] =
        some (.obj [("description", .str "Labelled.")]) ∧
      Pointer.nameUnder? "#/properties/" ("#/properties/" ++ Pointer.escape "~1/") ≠
        Pointer.nameUnder? "#/properties/" ("#/properties/" ++ Pointer.escape "~1/~0") := by
  have hlabels : labels.DistinctKeys := by decide +kernel
  have hescape : Pointer.escape "~1/~0" = "~01~1~00" := by decide +kernel
  obtain ⟨-, hschema, hsibling, hmoved, hslot, hother⟩ := pointers_to_name "~1/~0"
  rw [hescape] at hschema hsibling hmoved hslot
  exact ⟨hlabels, hschema _ rfl, hsibling _ rfl, hmoved _ (by decide) rfl,
    hslot labels "parameters" _ _ hlabels (by simp [kinds]) rfl rfl rfl rfl,
    hslot labels "requestBodies" _ _ hlabels (by simp [kinds]) rfl rfl rfl rfl,
    hslot labels "responses" _ _ hlabels (by simp [kinds]) rfl rfl rfl rfl,
    (hother "~1/" (by decide)).1 _⟩

end Bundle
end ApiDigest
