/-
  Pointers to sibling properties.

  A property whose node points at a sibling is recorded as that sibling, and elements of an
  array that point at a sibling are recorded as if its node stood in their place.  Pointers
  are followed once: what a sibling points at in turn is not looked at.

  * `Schema.PointsAt` says which node a pointer leads to, and `Schema.IsEnd` that a node does
    not point at a sibling itself;
  * `Schema.setItems` writes a node in the place of the elements of an array, and
    `Schema.withoutItems` is the part of a node that does not depend on elements;
  * `Schema.propertyRecord_of_pointsAt`: the record of a pointer is that of its sibling;
  * `Schema.property?_setItems`: a sibling's node in the place of elements that point at it
    changes no record;
  * `Schema.sibling_pointers` puts these together, with what is recorded of a pointer to a
    pointer.
-/
import ApiDigest.Proofs.NullableProperties
import ApiDigest.Proofs.Pointers

namespace ApiDigest.Schema

variable {siblings : List (String × Schema)} {required : List String}
  {name title property x y : String} {node other target items : Schema}

/-! ## Following a pointer once -/

/-- The node points at a property that is there, with the given node. -/
structure PointsAt (siblings : List (String × Schema)) (node : Schema) (x : String)
    (target : Schema) : Prop where
  name : node.siblingName? = some x
  found : Fields.get? x siblings = some target

/-- The node does not point at a property that is there. -/
def IsEnd (siblings : List (String × Schema)) (node : Schema) : Prop :=
  ∀ x, node.siblingName? = some x → Fields.get? x siblings = none

theorem PointsAt.resolveSibling (h : PointsAt siblings node x target) :
    resolveSibling siblings node = target := by
  rw [Schema.resolveSibling, h.name, Option.bind_some, h.found, Option.getD_some]

theorem IsEnd.resolveSibling (h : IsEnd siblings node) : resolveSibling siblings node = node := by
  rw [Schema.resolveSibling]
  cases hname : node.siblingName? with
  | none => rfl
  | some x => rw [Option.bind_some, h x hname, Option.getD_none]

/-- **The record of a pointer to a sibling** is that of the sibling, under its own name. -/
theorem propertyRecord_of_pointsAt (h : PointsAt siblings node x target)
    (hend : IsEnd siblings target) : propertyRecord siblings required name node =
      { propertyRecord siblings required x target with
        name, required := required.contains name } := by
  rw [propertyRecord, propertyRecord, h.resolveSibling, hend.resolveSibling]

/-! ## Pointers to pointers -/

/-- The node has no keywords besides a pointer that would make it of a type. -/
structure IsBare (node : Schema) : Prop where
  declared : node.declared = none
  properties : node.properties = []
  variants : node.variants = []

/-- A pointer to a sibling is no pointer into the schema table. -/
theorem tableName?_of_siblingName? (h : node.siblingName? = some x) : node.tableName? = none := by
  obtain ⟨pointer, hpointer, hname⟩ := Option.bind_eq_some_iff.1 h
  obtain ⟨rest, hrest, -⟩ := Option.map_eq_some_iff.1 hname
  rw [tableName?, hpointer, Option.bind_some]
  by_contra htable
  obtain ⟨other, htable⟩ := Option.ne_none_iff_exists'.1 htable
  obtain ⟨rest', hrest', -⟩ := Option.map_eq_some_iff.1 htable
  have hchars := congrArg String.toList
    ((Text.afterStart?_eq_some hrest).symm.trans (Text.afterStart?_eq_some hrest'))
  rw [String.toList_append, String.toList_append] at hchars
  -- the third characters differ
  cases hchars

theorem IsBare.valueType (h : node.IsBare) : node.valueType = .base .unknown := by
  rw [valueType_ofType h.properties h.variants, h.declared]
  rfl

theorem IsBare.isArrayNode (h : node.IsBare) : node.isArrayNode = false := by
  rw [Schema.isArrayNode, h.valueType, declares, typeNames, h.declared]
  rfl

/-- **A pointer to a bare pointer** says nothing about the values of a property. -/
theorem propertyRecord_of_bare (h : PointsAt siblings node x target)
    (hpointer : target.siblingName? = some y) (hbare : target.IsBare) :
    propertyRecord siblings required name node =
      { name, type := .base .unknown, required := required.contains name, isArray := false,
        itemType := none, itemRef := none, ref := none, literals := target.literals } := by
  have hplain : target.unwrapNullable = target := by
    rw [unwrapNullable, hbare.variants]
    rfl
  rw [propertyRecord, h.resolveSibling, hbare.valueType, hbare.isArrayNode, hplain,
    tableName?_of_siblingName? hpointer]
  rfl

/-! ## Elements written in place -/

/-- Gives the first node that declares an array other elements. -/
def setFirstItems (items : Schema) : List Schema → List Schema
  | [] => []
  | variant :: rest =>
    if variant.declares "array" then { variant with items := some items } :: rest
    else variant :: setFirstItems items rest

/-- Writes a node in the place of the elements of an array. -/
def setItems (node items : Schema) : Schema :=
  if node.declares "array" then { node with items := some items }
  else { node with variants := setFirstItems items node.variants }

theorem find?_setFirstItems {variants : List Schema} {first : Schema}
    (h : variants.find? (fun variant => variant.declares "array") = some first) :
    (setFirstItems items variants).find? (fun variant => variant.declares "array") =
      some { first with items := some items } := by
  induction variants with
  | nil => cases h
  | cons variant rest ih =>
    rw [setFirstItems]
    split_ifs with harray
    · rw [List.find?_cons_of_pos (by exact harray)] at h
      obtain rfl := Option.some.inj h
      exact List.find?_cons_of_pos harray
    · rw [List.find?_cons_of_neg (by exact harray)] at h
      rw [List.find?_cons_of_neg (by exact harray), ih h]

theorem arrayItems_setItems (h : node.arrayItems = some other) (items : Schema) :
    (node.setItems items).arrayItems = some items := by
  rw [arrayItems] at h
  rw [setItems]
  by_cases harray : node.declares "array" = true
  · rw [if_pos harray, arrayItems]
    exact if_pos harray
  · rw [if_neg harray] at h
    obtain ⟨first, hfirst, -⟩ := Option.bind_eq_some_iff.1 h
    rw [if_neg harray, arrayItems]
    refine (if_neg harray).trans ?_
    show ((setFirstItems items node.variants).find? _).bind Schema.items = _
    rw [find?_setFirstItems hfirst, Option.bind_some]

/-! ## What does not depend on elements -/

/-- A node without elements of its own. -/
def dropItems (node : Schema) : Schema := { node with items := none }

/-- A node without elements, also in its variants. -/
def withoutItems (node : Schema) : Schema :=
  { node.dropItems with variants := node.variants.map dropItems }

theorem map_dropItems_setFirstItems (items : Schema) (variants : List Schema) :
    (setFirstItems items variants).map dropItems = variants.map dropItems := by
  induction variants with
  | nil => rfl
  | cons variant rest ih =>
    rw [setFirstItems]
    split_ifs
    · rfl
    · rw [List.map_cons, ih, List.map_cons]

theorem withoutItems_setItems (node items : Schema) :
    (node.setItems items).withoutItems = node.withoutItems := by
  rw [setItems]
  split_ifs
  · rfl
  · rw [withoutItems, withoutItems]
    exact congrArg (fun variants => { node.dropItems with variants })
      (map_dropItems_setFirstItems items node.variants)

theorem realVariants_withoutItems (node : Schema) :
    node.withoutItems.realVariants = node.realVariants.map dropItems :=
  List.filter_map

theorem valueType_dropItems (node : Schema) : node.dropItems.valueType = node.valueType := by
  rw [valueType_eq, valueType_eq]
  rfl

theorem valueType_withoutItems (node : Schema) :
    node.withoutItems.valueType = node.valueType := by
  have hvariants : node.withoutItems.variants.length = node.variants.length :=
    List.length_map dropItems
  rw [valueType_eq, valueType_eq, realVariants_withoutItems, List.map_map, hvariants,
    List.map_congr_left fun variant _ => variant.valueType_dropItems]
  rfl

theorem isArrayNode_withoutItems (node : Schema) :
    node.withoutItems.isArrayNode = node.isArrayNode := by
  rw [isArrayNode, valueType_withoutItems]
  rfl

/-- A wrapper has the same pointer and the same literals in it without elements. -/
theorem unwrapNullable_withoutItems (node : Schema) :
    node.withoutItems.unwrapNullable.tableName? = node.unwrapNullable.tableName? ∧
      node.withoutItems.unwrapNullable.literals = node.unwrapNullable.literals := by
  have hvariants : node.withoutItems.variants.length = node.variants.length :=
    List.length_map dropItems
  rw [unwrapNullable, unwrapNullable, realVariants_withoutItems, hvariants]
  split_ifs
  · exact ⟨rfl, rfl⟩
  · rcases node.realVariants with _ | ⟨first, _ | ⟨second, rest⟩⟩
    all_goals exact ⟨rfl, rfl⟩

/-- What a record says of a node besides its elements. -/
structure SameBesidesItems (node other : Schema) : Prop where
  siblingName : node.siblingName? = other.siblingName?
  tableName : node.tableName? = other.tableName?
  valueType : node.valueType = other.valueType
  isArrayNode : node.isArrayNode = other.isArrayNode
  ref : node.unwrapNullable.tableName? = other.unwrapNullable.tableName?
  literals : node.unwrapNullable.literals = other.unwrapNullable.literals

theorem sameBesidesItems_of_withoutItems (h : node.withoutItems = other.withoutItems) :
    SameBesidesItems node other where
  siblingName := show node.withoutItems.siblingName? = _ by rw [h]; rfl
  tableName := show node.withoutItems.tableName? = _ by rw [h]; rfl
  valueType := by rw [← valueType_withoutItems, h, valueType_withoutItems]
  isArrayNode := by rw [← isArrayNode_withoutItems, h, isArrayNode_withoutItems]
  ref := by rw [← (unwrapNullable_withoutItems node).1, h, (unwrapNullable_withoutItems other).1]
  literals := by
    rw [← (unwrapNullable_withoutItems node).2, h, (unwrapNullable_withoutItems other).2]

/-! ## A sibling in the place of its pointer -/

/-- The second node is the first one, or the given array after its elements were written in
    place. -/
def Rewritten (node target a b : Schema) : Prop := b = a ∨ a = node ∧ b = node.setItems target

theorem Rewritten.sameBesidesItems {a b : Schema} (h : Rewritten node target a b) :
    SameBesidesItems b a := by
  rcases h with rfl | ⟨rfl, rfl⟩
  · exact ⟨rfl, rfl, rfl, rfl, rfl, rfl⟩
  · exact sameBesidesItems_of_withoutItems (withoutItems_setItems a target)

theorem Rewritten.resolveSibling {a b : Schema} (h : Rewritten node target a b)
    (hnode : Fields.get? name siblings = some node) :
    Rewritten node target (resolveSibling siblings a)
      (resolveSibling (Fields.insert name (node.setItems target) siblings) b) := by
  rw [resolveSibling_insert, h.sameBesidesItems.siblingName]
  split_ifs with hname
  · exact .inr ⟨PointsAt.resolveSibling ⟨hname, hnode⟩, rfl⟩
  · rw [Schema.resolveSibling, Schema.resolveSibling, h.sameBesidesItems.siblingName]
    cases a.siblingName?.bind fun name => Fields.get? name siblings with
    | none => exact h
    | some _ => exact .inl rfl

/-- Elements that are rewritten nodes come out the same. -/
theorem sameElements_of_rel {a b : Option Schema} (h : Option.Rel (Rewritten node target) a b) :
    SameElements b a := by
  cases h with
  | none => exact ⟨rfl, rfl⟩
  | some h =>
    constructor
    · simp [elementType, h.sameBesidesItems.tableName, h.sameBesidesItems.valueType]
    · exact h.sameBesidesItems.tableName

/-- The elements that a record has, after those of one array were written in place. -/
theorem Rewritten.sameElements {a b : Schema} (h : Rewritten node target a b)
    (hnode : Fields.get? name siblings = some node) (hitems : node.arrayItems = some items)
    (hpoints : PointsAt siblings items x target) (hend : IsEnd siblings target) :
    SameElements (elementsNode (Fields.insert name (node.setItems target) siblings) b)
      (elementsNode siblings a) := by
  rw [elementsNode, elementsNode, h.sameBesidesItems.isArrayNode]
  split_ifs with harray
  · refine sameElements_of_rel (?_ : Option.Rel (Rewritten node target) _ _)
    rcases h with rfl | ⟨rfl, rfl⟩
    · cases b.arrayItems with
      | none => exact .none
      | some items => exact .some (Rewritten.resolveSibling (.inl rfl) hnode)
    · rw [hitems, arrayItems_setItems hitems, Option.map_some, Option.map_some,
        hpoints.resolveSibling]
      have htarget : Rewritten a target target target := .inl rfl
      have hresolved := htarget.resolveSibling hnode
      rw [hend.resolveSibling] at hresolved
      exact .some hresolved
  · exact ⟨rfl, rfl⟩

theorem propertyRecord_eq (siblings : List (String × Schema)) (required : List String)
    (name : String) (node : Schema) : propertyRecord siblings required name node =
      { name
        type := (Schema.resolveSibling siblings node).valueType
        required := required.contains name
        isArray := (Schema.resolveSibling siblings node).isArrayNode
        itemType := elementType (elementsNode siblings (Schema.resolveSibling siblings node))
        itemRef := elementRef (elementsNode siblings (Schema.resolveSibling siblings node))
        ref := (Schema.resolveSibling siblings node).unwrapNullable.tableName?
        literals := (Schema.resolveSibling siblings node).unwrapNullable.literals } := rfl

/-- **A sibling's node in the place of elements** that point at it changes no record. -/
theorem property?_setItems {schema : Schema}
    (hnode : Fields.get? name schema.properties = some node) (hitems : node.arrayItems = some items)
    (hpoints : PointsAt schema.properties items x target) (hend : IsEnd schema.properties target)
    (title property : String) :
    ((schema.setProperty name (node.setItems target)).record title).property? property =
      (schema.record title).property? property := by
  rw [property?_record, property?_record, setProperty, Fields.get?_insert]
  have hrecord : ∀ a b, Rewritten node target a b →
      propertyRecord (Fields.insert name (node.setItems target) schema.properties)
          schema.required property b =
        propertyRecord schema.properties schema.required property a := by
    intro a b h
    have hresolved := h.resolveSibling hnode
    have hsame := hresolved.sameBesidesItems
    obtain ⟨htype, href⟩ := hresolved.sameElements hnode hitems hpoints hend
    rw [propertyRecord_eq, propertyRecord_eq, htype, href, hsame.valueType, hsame.isArrayNode,
      hsame.ref, hsame.literals]
  split_ifs with hname
  · subst hname
    rw [hnode, Option.map_some, Option.map_some, hrecord node _ (.inr ⟨rfl, rfl⟩)]
  · refine Option.map_congr fun other hother => hrecord other other (.inl rfl)

/-! ## All pointers of a schema -/

/-- **A pointer to a sibling stands for it, one level deep:** a property that points at an end
    has its record, an array whose elements point at one has those of the end written in place,
    and a property that points at a bare pointer, be it to itself or round a cycle, is of no
    known type. -/
theorem sibling_pointers (schema : Schema) (title : String) :
    (∀ name x node target, Fields.get? name schema.properties = some node →
      PointsAt schema.properties node x target → IsEnd schema.properties target →
      ∃ record, (schema.record title).property? x = some record ∧
        (schema.record title).property? name =
          some { record with name, required := schema.required.contains name }) ∧
    (∀ name x node items target, Fields.get? name schema.properties = some node →
      node.arrayItems = some items → PointsAt schema.properties items x target →
      IsEnd schema.properties target → ∀ property,
      ((schema.setProperty name (node.setItems target)).record title).property? property =
        (schema.record title).property? property) ∧
    (∀ name x y node target, Fields.get? name schema.properties = some node →
      PointsAt schema.properties node x target → target.siblingName? = some y → target.IsBare →
      ∃ record, (schema.record title).property? name = some record ∧
        record.type = .base .unknown ∧ record.ref = none ∧ record.isArray = false) := by
  refine ⟨?sibling, ?elements, ?chain⟩
  case sibling =>
    intro name x node target hnode hpoints hend
    refine ⟨propertyRecord schema.properties schema.required x target, ?_, ?_⟩
    · rw [property?_record, hpoints.found, Option.map_some]
    · rw [property?_record, hnode, Option.map_some, propertyRecord_of_pointsAt hpoints hend]
  case elements =>
    intro name x node items target hnode hitems hpoints hend
    exact property?_setItems hnode hitems hpoints hend title
  case chain =>
    intro name x y node target hnode hpoints hpointer hbare
    refine ⟨propertyRecord schema.properties schema.required name node, ?_, ?_⟩
    · rw [property?_record, hnode, Option.map_some]
    · rw [propertyRecord_of_bare hpoints hpointer hbare]
      exact ⟨rfl, rfl, rfl⟩

/-- A node that only points elsewhere. -/
def pointerTo (pointer : String) : Schema := { ofType none with pointer := some pointer }

/-- An array of labels. -/
def labels : Schema :=
  { ofType (some (.single "array")) with items := some (pointerTo "#/properties/label") }

/-- A folder with a pointer to an array of siblings, and pointers that lead nowhere. -/
def folder : Schema :=
  { ofType (some (.single "object")) with
    required := ["first"]
    properties := [
      ("label", ofType (some (.single "string"))),
      ("a/b", labels),
      ("first", pointerTo "#/properties/a~1b"),
      ("self", pointerTo "#/properties/self"),
      ("left", pointerTo "#/properties/right"),
      ("right", pointerTo "#/properties/left")] }

theorem sibling_pointers_folder :
    (∃ record, (folder.record "Folder").property? "a/b" = some record ∧
      (folder.record "Folder").property? "first" =
        some { record with name := "first", required := true }) ∧
    (∀ property,
      ((folder.setProperty "a/b" (labels.setItems (ofType (some (.single "string"))))).record
        "Folder").property? property = (folder.record "Folder").property? property) ∧
    (∃ record, (folder.record "Folder").property? "self" = some record ∧
      record.type = .base .unknown ∧ record.ref = none ∧ record.isArray = false) ∧
    (∃ record, (folder.record "Folder").property? "left" = some record ∧
      record.type = .base .unknown ∧ record.ref = none ∧ record.isArray = false) := by
  obtain ⟨hsibling, helements, hchain⟩ := sibling_pointers folder "Folder"
  exact ⟨hsibling "first" "a/b" _ _ rfl ⟨by decide, rfl⟩ nofun,
    helements "a/b" "label" labels _ _ rfl rfl ⟨by decide, rfl⟩ nofun,
    hchain "self" "self" "self" _ _ rfl ⟨by decide, rfl⟩ (by decide) ⟨rfl, rfl, rfl⟩,
    hchain "left" "right" "left" _ _ rfl ⟨by decide, rfl⟩ (by decide) ⟨rfl, rfl, rfl⟩⟩

end ApiDigest.Schema
