/-
  The literals of properties, from the document to the digest.

  The literals of a property stand at the value that says what the property may be: its own,
  or that of the sibling it points at, without a wrapper for null.  They are read and written
  one after another, so their number and their order stay.  Each comes out as it stands, but
  for integers that need all 64 bits: those are read as doubles.

  * `Json.resolved` and `Json.unwrapped` find the value in a document, and
    `Json.ReadAs.resolved` and `Json.ReadAs.unwrapped` say that it is read as the node that
    a record has its literals from;
  * `Json.isLiteral` holds of the texts, truth values, nulls and integers of 64 bits, and
    `Json.asWritten` is what becomes of one of them;
  * `Schema.enumValues_propertyRecord`: the literals of a property as they are written;
  * `Document.literals_kept_iff`: they are those of the document if, and only if, no integer
    among them needs all 64 bits.
-/
import ApiDigest.Digest.ToJson
import ApiDigest.Proofs.SpelledRecords

namespace ApiDigest

open Role (StandsIn)

/-! ## Values behind properties -/

namespace Json

/-- What stands at a key of a value that is read as a node. -/
def nodeField? (key : String) (value : Json) : Option Json :=
  (value.record? RecordKind.schema.keys).bind (Fields.get? key)

/-- The entries of the properties of a node that are read, in order. -/
def propertyEntries (value : Json) : List (String × Json) :=
  ((value.nodeField? "properties").map nodeEntries).getD []

/-- The items of an array that are read as nodes, in order. -/
def nodeItems : Json → List Json
  | .arr items => items.filter fun item => item.isRecord 10
  | _ => []

/-- The variants of a union that are read, in order. -/
def variantItems (value : Json) : List Json := ((value.nodeField? "anyOf").map nodeItems).getD []

/-- The value of the sibling that a value points at, if there is one; any other value itself. -/
def resolved (siblings : List (String × Json)) (value : Json) : Json :=
  ((((value.nodeField? "$ref").bind str?).bind (Pointer.nameUnder? Pointer.siblingTable)).bind
    fun name => Fields.get? name siblings).getD value

/-- Whether a variant only stands for "absent". -/
def isNullSentinel (value : Json) : Bool := (Schema.ofJson? value).any Schema.isNullSentinel

/-- The only real variant of a union of several variants; any other value itself. -/
def unwrapped (value : Json) : Json :=
  if value.variantItems.length < 2 then value
  else
    match value.variantItems.filter fun variant => !variant.isNullSentinel with
    | [only] => only
    | _ => value

/-- The literals of a node. -/
def literalItems? (value : Json) : Option (List Json) := (value.nodeField? "enum").bind items?

end Json

/-- A key finds related values in lists whose fields are related one by one. -/
theorem Fields.rel_get? {α β : Type} {R : α → β → Prop} {l : List (String × α)}
    {m : List (String × β)} (h : List.Forall₂ (fun a b => a.1 = b.1 ∧ R a.2 b.2) l m)
    (key : String) : Option.Rel R (get? key l) (get? key m) := by
  induction h with
  | nil => exact .none
  | @cons a b l m hab _ ih =>
    rw [get?_cons, get?_cons, hab.1]
    split_ifs
    · exact .some hab.2
    · exact ih

/-! ## Nodes behind properties -/

/-- A value is read as a node. -/
def Json.ReadAs (value : Json) (node : Schema) : Prop := Schema.ofJson? value = some node

namespace Json

variable {value : Json} {node : Schema}

/-- A value that is read has fields, and its node is made of them. -/
theorem ReadAs.exists_fields (h : value.ReadAs node) :
    ∃ fields, node = Schema.ofFields fields ∧
      ∀ key, value.nodeField? key = Fields.get? key fields := by
  rw [ReadAs, Schema.ofJson?_eq] at h
  obtain ⟨fields, hfields, rfl⟩ := Option.map_eq_some_iff.1 h
  refine ⟨fields, rfl, fun key => ?_⟩
  replace hfields : value.record? RecordKind.schema.keys = some fields := hfields
  rw [nodeField?, hfields, Option.bind_some]

/-- The properties of a node are read from the entries, one by one. -/
theorem ReadAs.properties (h : value.ReadAs node) :
    List.Forall₂ (fun (field : String × Schema) (entry : String × Json) =>
      field.1 = entry.1 ∧ entry.2.ReadAs field.2) node.properties value.propertyEntries := by
  obtain ⟨fields, rfl, hget⟩ := h.exists_fields
  rw [Schema.properties_ofFields, propertyEntries, hget]
  cases Fields.get? "properties" fields with
  | none => exact .nil
  | some table => exact table.forall₂_readEntries

/-- Items are read one after another. -/
theorem forall₂_readItems (value : Json) :
    List.Forall₂ (fun (variant : Schema) (item : Json) => item.ReadAs variant)
      (value.readItems Schema.ofJson?) value.nodeItems := by
  cases value with
  | arr items =>
    rw [nodeItems, readItems]
    induction items with
    | nil => exact .nil
    | cons item rest ih =>
      have hrecord := Schema.isSome_ofJson? item
      cases hnode : Schema.ofJson? item with
      | none =>
        rw [hnode] at hrecord
        rwa [List.filterMap_cons_none hnode, List.filter_cons_of_neg (by simp [← hrecord])]
      | some node =>
        rw [hnode] at hrecord
        rw [List.filterMap_cons_some hnode, List.filter_cons_of_pos hrecord.symm]
        exact .cons hnode ih
  | _ => exact .nil

/-- The variants of a node are read from the items, one by one. -/
theorem ReadAs.variants (h : value.ReadAs node) :
    List.Forall₂ (fun (variant : Schema) (item : Json) => item.ReadAs variant)
      node.variants value.variantItems := by
  obtain ⟨fields, rfl, hget⟩ := h.exists_fields
  rw [Schema.variants_ofFields_eq, variantItems, hget, Fields.readList]
  cases Fields.get? "anyOf" fields with
  | none => exact .nil
  | some list => exact list.forall₂_readItems

/-- **A sibling stands for its pointer** in a document as it does among nodes. -/
theorem ReadAs.resolved {siblings : List (String × Schema)} {entries : List (String × Json)}
    (h : value.ReadAs node)
    (hsiblings : List.Forall₂ (fun (field : String × Schema) (entry : String × Json) =>
      field.1 = entry.1 ∧ entry.2.ReadAs field.2) siblings entries) :
    (value.resolved entries).ReadAs (Schema.resolveSibling siblings node) := by
  have hname : node.siblingName? = ((value.nodeField? "$ref").bind str?).bind
      (Pointer.nameUnder? Pointer.siblingTable) := by
    obtain ⟨fields, rfl, hget⟩ := h.exists_fields
    rw [hget]
    rfl
  rw [Json.resolved, ← hname, Schema.resolveSibling]
  cases node.siblingName? with
  | none => exact h
  | some name =>
    rw [Option.bind_some, Option.bind_some]
    have hfound := Fields.rel_get? (R := fun sibling entry => ReadAs entry sibling) hsiblings name
    generalize Fields.get? name siblings = sibling, Fields.get? name entries = entry at hfound
    cases hfound with
    | none => exact h
    | some hread => exact hread

/-- **The value in a wrapper for null** is read as the node in the node's wrapper. -/
theorem ReadAs.unwrapped (h : value.ReadAs node) :
    value.unwrapped.ReadAs node.unwrapNullable := by
  have hvariants := h.variants
  have hreal : List.Forall₂ (fun (variant : Schema) (item : Json) => item.ReadAs variant)
      node.realVariants (value.variantItems.filter fun variant => !variant.isNullSentinel) := by
    refine List.rel_filter ?_ hvariants
    intro variant item hread
    show (!variant.isNullSentinel) = true ↔ (!item.isNullSentinel) = true
    rw [isNullSentinel, show Schema.ofJson? item = some variant from hread, Option.any_some]
  rw [Json.unwrapped, Schema.unwrapNullable, hvariants.length_eq]
  split_ifs
  · exact h
  · generalize node.realVariants = real,
      value.variantItems.filter (fun variant => !variant.isNullSentinel) = items at hreal
    rcases hreal with _ | ⟨hread, _ | ⟨_, _⟩⟩
    · exact h
    · exact hread
    · exact h

end Json

/-! ## Literals as they are written -/

namespace Json

/-- A text, a truth value, null, or an integer of 64 bits, with a sign or without. -/
def isLiteral : Json → Bool
  | .null | .bool _ | .str _ => true
  | .num (.int n) => -0x8000000000000000 ≤ n && n < 0x10000000000000000
  | _ => false

/-- What becomes of a literal: an integer that needs all 64 bits is rounded to a double. -/
def asWritten : Json → Json
  | .num (.int n) =>
    if n < 0x8000000000000000 then .num (.int n) else .num (.double (Binary64.ofInt n))
  | other => other

theorem asWritten_eq_iff {item : Json} :
    item.asWritten = item ↔ ∀ n, item = .num (.int n) → n < 0x8000000000000000 := by
  constructor
  · rintro h n rfl
    by_contra hn
    rw [asWritten, if_neg hn] at h
    cases h
  · intro h
    cases item with
    | num number =>
      cases number with
      | int n => rw [asWritten, if_pos (h n rfl)]
      | double x => rfl
    | _ => rfl

theorem map_asWritten_eq_iff {items : List Json} :
    items.map asWritten = items ↔ ∀ n, .num (.int n) ∈ items → n < 0x8000000000000000 := by
  conv_lhs => rhs; rw [← List.map_id items]
  rw [List.map_inj_left]
  constructor
  · intro h n hn
    exact asWritten_eq_iff.1 (h _ hn) n rfl
  · rintro h item hitem
    exact asWritten_eq_iff.2 fun n hn => h n (hn ▸ hitem)

end Json

/-- **A literal is read and written** as it stands, or as a double. -/
theorem Literal.exists_of_isLiteral {item : Json} (h : item.isLiteral = true) :
    ∃ literal, ofJson? item = some literal ∧ literal.toJson = item.asWritten := by
  cases item with
  | null | bool | str => exact ⟨_, rfl, rfl⟩
  | num number =>
    cases number with
    | int n =>
      rw [Json.isLiteral, Bool.and_eq_true, decide_eq_true_iff, decide_eq_true_iff] at h
      refine ⟨_, rfl, ?_⟩
      rw [Json.asWritten]
      by_cases hn : n < 0x8000000000000000
      · rw [if_pos ⟨h.1, hn⟩, if_pos hn]
        rfl
      · rw [if_neg fun hrange => hn hrange.2, if_neg hn]
        rfl
    | double x => cases h
  | arr | obj => cases h

/-- Lists of literals are read and written item by item. -/
theorem Literal.exists_list_of_isLiteral {items : List Json}
    (h : ∀ item ∈ items, item.isLiteral = true) :
    ∃ literals, listOfJson? (.arr items) = some literals ∧
      literals.map toJson = items.map Json.asWritten := by
  induction items with
  | nil => exact ⟨[], rfl, rfl⟩
  | cons item rest ih =>
    obtain ⟨hitem, hrest⟩ := List.forall_mem_cons.1 h
    obtain ⟨literal, hread, hwritten⟩ := exists_of_isLiteral hitem
    obtain ⟨literals, hreads, hwrittens⟩ := ih hrest
    refine ⟨literal :: literals, ?_, by rw [List.map_cons, List.map_cons, hwritten, hwrittens]⟩
    rw [listOfJson?] at hreads ⊢
    rw [List.mapM_cons, hread, hreads]
    rfl

/-! ## Literals of properties -/

namespace Schema

variable {siblings : List (String × Schema)} {entries : List (String × Json)}
  {value : Json} {node : Schema} {items : List Json}

/-- The literals of a value as its node has them. -/
theorem exists_literals (h : value.ReadAs node) (hitems : value.literalItems? = some items)
    (hliterals : ∀ item ∈ items, item.isLiteral = true) :
    ∃ literals, node.literals = some literals ∧
      literals.map Literal.toJson = items.map Json.asWritten := by
  obtain ⟨list, hlist, hitems⟩ := Option.bind_eq_some_iff.1 hitems
  obtain rfl : list = .arr items := by
    cases list with
    | arr _ => rw [Option.some.inj hitems]
    | _ => cases hitems
  obtain ⟨literals, hread, hwritten⟩ := Literal.exists_list_of_isLiteral hliterals
  obtain ⟨fields, rfl, hget⟩ := h.exists_fields
  rw [hget] at hlist
  refine ⟨literals, ?_, hwritten⟩
  show (Fields.get? "enum" fields).bind Literal.listOfJson? = some literals
  rw [hlist, Option.bind_some, hread]

/-- **The literals of a property**, as they are written. -/
theorem enumValues_propertyRecord (required : List String) (name : String)
    (h : value.ReadAs node)
    (hsiblings : List.Forall₂ (fun (field : String × Schema) (entry : String × Json) =>
      field.1 = entry.1 ∧ entry.2.ReadAs field.2) siblings entries)
    (hitems : (value.resolved entries).unwrapped.literalItems? = some items)
    (hliterals : ∀ item ∈ items, item.isLiteral = true) :
    (propertyRecord siblings required name node).toJson.get? "enumValues" =
      some (.arr (items.map Json.asWritten)) := by
  obtain ⟨literals, hnode, hwritten⟩ :=
    exists_literals (h.resolved hsiblings).unwrapped hitems hliterals
  show some (Json.ofOption _ (resolveSibling siblings node).unwrapNullable.literals) = _
  rw [hnode, ← hwritten]
  rfl

end Schema

namespace Document

/-- **The literals of properties are kept** if, and only if, no integer among them needs all
    64 bits.  Every schema record of a document is that of a node, read from a value that
    stands in the document; and the record of a node has the properties of the entries of any
    value that it is read from, one by one. -/
theorem literals_kept_iff (root : List (String × Json)) :
    (∀ record ∈ (ofFields root).digest.schemas, ∃ value node,
      StandsIn root (.record .schema) value ∧ value.ReadAs node ∧
        record = node.record record.name) ∧
    ∀ (value : Json) (node : Schema) (title : String), value.ReadAs node →
      List.Forall₂ (fun (property : PropertyRecord) (entry : String × Json) =>
        property.name = entry.1 ∧
          ∀ items, (entry.2.resolved value.propertyEntries).unwrapped.literalItems? = some items →
            (∀ item ∈ items, item.isLiteral = true) →
            (property.toJson.get? "enumValues" = some (.arr items) ↔
              ∀ n, .num (.int n) ∈ items → n < 0x8000000000000000))
        (node.record title).properties value.propertyEntries := by
  constructor
  · intro record hrecord
    obtain ⟨node, hnode, hrecord⟩ := exists_of_forall₂ (ofFields root).forall₂_records hrecord
    obtain ⟨value, hvalue, hread⟩ := spelled_recordedNodes hnode
    exact ⟨value, node, hvalue, hread, hrecord⟩
  · intro value node title hread
    have hentries := hread.properties
    show List.Forall₂ _ (node.properties.map fun field =>
      Schema.propertyRecord node.properties node.required field.1 field.2) _
    rw [List.forall₂_map_left_iff]
    refine hentries.imp fun field entry hfield => ⟨hfield.1, fun items hitems hliterals => ?_⟩
    rw [Schema.enumValues_propertyRecord node.required field.1 hfield.2 hentries hitems hliterals,
      Option.some.injEq, Json.arr.injEq, Json.map_asWritten_eq_iff]

/-- Levels of every kind, and the least and the largest integer with a sign. -/
def levels : List Json :=
  [.str "low", .null, .bool true, .num (.int (-9223372036854775808)),
    .num (.int 9223372036854775807), .str "low"]

/-- A schema with a level that may be null, and another property that points at it. -/
def alarm : Json :=
  .obj [("properties", .obj [
    ("level", .obj [("anyOf", .arr [
      .obj [("enum", .arr levels)], .obj [("type", .str "null")]])]),
    ("last", .obj [("$ref", .str "#/properties/level")])])]

/-- A document with that schema. -/
def alarms : List (String × Json) :=
  [("components", .obj [("schemas", .obj [("Alarm", alarm)])])]

theorem literals_kept_iff_alarms :
    (∃ value node, StandsIn alarms (.record .schema) value ∧ value.ReadAs node ∧
      ((Schema.ofJson? alarm).get rfl).record "Alarm" = node.record "Alarm") ∧
    (∀ item ∈ levels, item.isLiteral = true) ∧
    (∀ n, .num (.int n) ∈ levels → n < 0x8000000000000000) ∧
    ∃ level last, (((Schema.ofJson? alarm).get rfl).record "Alarm").properties = [level, last] ∧
      last.name = "last" ∧ last.toJson.get? "enumValues" = some (.arr levels) := by
  obtain ⟨hrecords, hproperties⟩ := literals_kept_iff alarms
  have hliterals : ∀ item ∈ levels, item.isLiteral = true := by decide
  have hints : ∀ n, .num (.int n) ∈ levels → n < 0x8000000000000000 := by
    intro n hn
    simp [levels] at hn
    omega
  refine ⟨hrecords _ List.mem_cons_self, hliterals, hints, _, _, rfl, rfl, ?_⟩
  have hlist := hproperties alarm ((Schema.ofJson? alarm).get rfl) "Alarm" rfl
  rcases hlist with _ | ⟨-, _ | ⟨⟨-, hlast⟩, -⟩⟩
  exact (hlast levels rfl hliterals).2 hints

/-- Flags, of which one is the largest integer without a sign. -/
def flags : List Json := [.num (.int 1), .num (.int 18446744073709551615)]

/-- A property that is restricted to the flags. -/
def mask : Json := .obj [("type", .str "integer"), ("enum", .arr flags)]

/-- A document with that property. -/
def access : List (String × Json) :=
  [("components", .obj [("schemas", .obj [
    ("Access", .obj [("properties", .obj [("mask", mask)])])])])]

/-- The largest integer is written as the next power of two. -/
theorem literals_changed_access :
    (∀ item ∈ flags, item.isLiteral = true) ∧
    (mask.resolved [("mask", mask)]).unwrapped.literalItems? = some flags ∧
    ∃ record ∈ (ofFields access).digest.schemas, ∃ property ∈ record.properties,
      property.name = "mask" ∧ property.toJson.get? "enumValues" ≠ some (.arr flags) ∧
        property.toJson.get? "enumValues" =
          some (.arr [.num (.int 1), .num (.double ⟨0x43F0000000000000⟩)]) := by
  have hwritten : ∀ record : PropertyRecord,
      record.toJson.get? "enumValues" =
        some (.arr [.num (.int 1), .num (.double ⟨0x43F0000000000000⟩)]) →
      record.toJson.get? "enumValues" ≠ some (.arr flags) := by
    intro record h hflags
    simp [flags, h] at hflags
  exact ⟨by decide, rfl, _, List.mem_cons_self, _, List.mem_cons_self, rfl, hwritten _ rfl, rfl⟩

end Document
end ApiDigest
