/-
  Wrappers for null around properties.

  The record of a property has its pointer and its literals from the node in a wrapper,
  but its type and its elements from the wrapper itself.  A wrapper has the type of the
  node in it, but declares none, and the variants of its variants are not looked at.  So
  an array that is not one by its type is none in a wrapper, and the elements that an
  array has from a variant are lost.

  * `Schema.orNull` is the wrapper of a node, `Schema.setProperty` puts a node at the place
    of a property, and `Schema.property?_orNull` is the record of a wrapped property;
  * `Schema.Transparent` says when a record has the same elements through the wrapper, and
    `Schema.property?_orNull_iff` that the wrapper does not show in exactly this case;
  * `Schema.property?_orNull_tags` is a property where it shows.
-/
import ApiDigest.Proofs.ArrayFields
import ApiDigest.Proofs.NullWrappers
import ApiDigest.Proofs.ValueTypes

namespace ApiDigest.Schema

variable {node wrapper items : Schema} {siblings : List (String × Schema)}
  {required : List String} {name : String}

/-- The wrapper that allows null besides what a node describes. -/
def orNull (node : Schema) : Schema := ofVariants [node, ofType (some (.single "null"))]

/-- A node with the given property, in the stead of one with the same name. -/
def setProperty (schema : Schema) (name : String) (node : Schema) : Schema :=
  { schema with properties := Fields.insert name node schema.properties }

theorem wraps_orNull (hreal : node.isNullSentinel = false) (hplain : node.unwrapNullable = node) :
    node.orNull.Wraps node :=
  ⟨hreal, hplain, [], [_], rfl, by simp, by decide⟩

/-! ## Properties of a node -/

/-- A property of a record is that of the node. -/
theorem property?_record (title name : String) (schema : Schema) :
    (schema.record title).property? name = (Fields.get? name schema.properties).map
      (propertyRecord schema.properties schema.required name) := by
  show (schema.properties.map fun field =>
    propertyRecord schema.properties schema.required field.1 field.2).find? _ = _
  generalize schema.properties = siblings
  suffices h : ∀ fields : List (String × Schema),
      (fields.map fun field => propertyRecord siblings schema.required field.1 field.2).find?
          (fun property => property.name = name) =
        (Fields.get? name fields).map (propertyRecord siblings schema.required name) from h siblings
  intro fields
  induction fields with
  | nil => rfl
  | cons field rest ih =>
    rw [List.map_cons, List.find?_cons, Fields.get?_cons, ih]
    by_cases h : field.1 = name
    · subst h
      simp [propertyRecord]
    · simp [propertyRecord, h]

theorem property?_setProperty (title name : String) (schema node : Schema) :
    ((schema.setProperty name node).record title).property? name = some
      (propertyRecord (Fields.insert name node schema.properties) schema.required name node) := by
  rw [property?_record, setProperty, Fields.get?_insert, if_pos rfl, Option.map_some]

/-- The record of a property that does not point at a sibling. -/
theorem propertyRecord_of_none (h : node.siblingName? = none) :
    propertyRecord siblings required name node =
      { name
        type := node.valueType
        required := required.contains name
        isArray := node.isArrayNode
        itemType := elementType (elementsNode siblings node)
        itemRef := elementRef (elementsNode siblings node)
        ref := node.unwrapNullable.tableName?
        literals := node.unwrapNullable.literals } := by
  have hresolved : resolveSibling siblings node = node := by
    rw [resolveSibling, h]
    rfl
  rw [propertyRecord, hresolved]
  rfl

theorem resolveSibling_insert (siblings : List (String × Schema)) (name : String)
    (node items : Schema) : resolveSibling (Fields.insert name node siblings) items =
      if items.siblingName? = some name then node else resolveSibling siblings items := by
  rw [resolveSibling, resolveSibling]
  cases items.siblingName? with
  | none => rfl
  | some sibling =>
    rw [Option.bind_some, Option.bind_some, Fields.get?_insert]
    by_cases h : sibling = name
    · simp [h]
    · simp [h]

/-! ## What a record has from a wrapper -/

theorem Wraps.valueType (h : wrapper.Wraps node) : wrapper.valueType = node.valueType := by
  rw [← wrapper.valueType_unwrapNullable, h.unwrapNullable]

theorem Wraps.isArrayNode_orNull (h : node.orNull.Wraps node) :
    node.orNull.isArrayNode = node.valueType.isArray := by
  rw [isArrayNode, h.valueType]
  rfl

theorem arrayItems_orNull (node : Schema) :
    node.orNull.arrayItems = if node.declares "array" then node.items else none := by
  show ([node, ofType (some (.single "null"))].find? fun variant =>
    variant.declares "array").bind Schema.items = _
  cases h : node.declares "array" with
  | false => rw [List.find?_cons_of_neg (by simp [h])]; rfl
  | true => rw [List.find?_cons_of_pos (by simp [h])]; rfl

/-- Two nodes of elements give the same record. -/
def SameElements (a b : Option Schema) : Prop :=
  elementType a = elementType b ∧ elementRef a = elementRef b

theorem not_sameElements_none (items : Schema) : ¬SameElements none (some items) := by
  rintro ⟨htype, href⟩
  have href : items.tableName? = none := href.symm
  simp [elementType, href] at htype

/-- Elements that point at the property itself come out in the wrapper. -/
theorem sameElements_resolveSibling_iff (h : node.orNull.Wraps node) :
    SameElements (some (resolveSibling (Fields.insert name node.orNull siblings) items))
        (some (resolveSibling (Fields.insert name node siblings) items)) ↔
      (items.siblingName? = some name → node.tableName? = none) := by
  rw [resolveSibling_insert, resolveSibling_insert]
  split_ifs with hself
  · have hwrapper : SameElements (some node.orNull) (some node) ↔ node.tableName? = none := by
      have hnone : node.orNull.tableName? = none := rfl
      rw [SameElements, elementType, elementRef, Option.bind_some, Option.bind_some, hnone,
        h.valueType]
      cases hname : node.tableName? <;> simp [elementType, elementRef, hname]
    rw [hwrapper]
    exact ⟨fun hnone _ => hnone, fun hnone => hnone hself⟩
  · exact ⟨fun _ hself' => absurd hself' hself, fun _ => ⟨rfl, rfl⟩⟩

/-- The elements of an array come out the same if they are its own, and not a pointer in
    the array's place. -/
theorem sameElements_arrayItems_iff (h : node.orNull.Wraps node) :
    SameElements
        (node.orNull.arrayItems.map (resolveSibling (Fields.insert name node.orNull siblings)))
        (node.arrayItems.map (resolveSibling (Fields.insert name node siblings))) ↔
      ∀ items ∈ node.arrayItems, node.declares "array" = true ∧
        (items.siblingName? = some name → node.tableName? = none) := by
  rw [arrayItems_orNull]
  by_cases hdeclares : node.declares "array" = true
  · have hitems : node.arrayItems = node.items := by rw [arrayItems, if_pos hdeclares]
    rw [if_pos hdeclares, hitems]
    cases node.items with
    | none => simp [SameElements]
    | some items => simp [hdeclares, sameElements_resolveSibling_iff h]
  · -- elements of a variant are not looked for in the variants of a variant
    rw [if_neg hdeclares]
    cases node.arrayItems with
    | none => simp [SameElements]
    | some items => simp [hdeclares, not_sameElements_none]

/-- **The record of a wrapped property** is that of the property, but for what it says about
    elements. -/
theorem property?_orNull (h : node.orNull.Wraps node) (hpointer : node.siblingName? = none)
    (title name : String) (schema : Schema) :
    ((schema.setProperty name node.orNull).record title).property? name =
      (((schema.setProperty name node).record title).property? name).map fun record =>
        let items := elementsNode (Fields.insert name node.orNull schema.properties) node.orNull
        { record with
          isArray := node.valueType.isArray
          itemType := elementType items
          itemRef := elementRef items } := by
  have hwrapper : node.orNull.siblingName? = none := rfl
  rw [property?_setProperty, property?_setProperty, propertyRecord_of_none hpointer,
    propertyRecord_of_none hwrapper, h.unwrapNullable, h.plain, h.valueType, h.isArrayNode_orNull,
    Option.map_some]

/-! ## Wrappers that do not show -/

/-- If the property of the given name is an array, then it is one by its type, and its
    elements, if it has any, are its own, and they are not the property itself unless
    that is no pointer. -/
def Transparent (name : String) (node : Schema) : Prop :=
  node.isArrayNode = true → node.valueType.isArray = true ∧
    ∀ items ∈ node.arrayItems, node.declares "array" = true ∧
      (items.siblingName? = some name → node.tableName? = none)

/-- **A wrapper for null around a property** does not show in its record if, and only if,
    an array stays one and its elements are found in the wrapper. -/
theorem property?_orNull_iff (title name : String) (schema : Schema)
    (hreal : node.isNullSentinel = false) (hplain : node.unwrapNullable = node)
    (hpointer : node.siblingName? = none) :
    ((schema.setProperty name node.orNull).record title).property? name =
        ((schema.setProperty name node).record title).property? name ↔
      node.Transparent name := by
  have hwraps := wraps_orNull hreal hplain
  have hrecord : ((schema.setProperty name node.orNull).record title).property? name =
        ((schema.setProperty name node).record title).property? name ↔
      node.valueType.isArray = node.isArrayNode ∧ SameElements
        (elementsNode (Fields.insert name node.orNull schema.properties) node.orNull)
        (elementsNode (Fields.insert name node schema.properties) node) := by
    rw [property?_orNull hwraps hpointer, property?_setProperty, propertyRecord_of_none hpointer]
    simp [SameElements]
  rw [hrecord, elementsNode, elementsNode, hwraps.isArrayNode_orNull, Transparent]
  by_cases harray : node.isArrayNode = true
  · by_cases htype : node.valueType.isArray = true
    · rw [harray, htype, if_pos rfl, if_pos rfl, sameElements_arrayItems_iff hwraps]
      simp
    · simp [harray, htype]
  · have htype : ¬node.valueType.isArray = true := fun htype =>
      harray (by rw [isArrayNode, htype, Bool.or_true])
    simp [harray, htype, SameElements]

/-- An array of texts. -/
def textArray : Schema :=
  { ofType (some (.single "array")) with items := some (ofType (some (.single "string"))) }

theorem property?_orNull_names :
    textArray.isNullSentinel = false ∧ textArray.unwrapNullable = textArray ∧
      textArray.siblingName? = none ∧
      (((ofType none).setProperty "names" textArray.orNull).record "Note").property? "names" =
        (((ofType none).setProperty "names" textArray).record "Note").property? "names" := by
  have hshows := property?_orNull_iff "Note" "names" (ofType none)
    (show textArray.isNullSentinel = false by decide) rfl rfl
  refine ⟨by decide, rfl, rfl, hshows.2 fun _ => ⟨by decide, fun items hitems => ⟨by decide, ?_⟩⟩⟩
  obtain rfl := Option.some.inj hitems
  exact nofun

/-- A text, or an array of texts. -/
def textOrTextArray : Schema := ofVariants [ofType (some (.single "string")), textArray]

/-- The elements of the array are lost in the wrapper. -/
theorem property?_orNull_tags :
    textOrTextArray.isNullSentinel = false ∧ textOrTextArray.unwrapNullable = textOrTextArray ∧
      textOrTextArray.siblingName? = none ∧
      (((ofType none).setProperty "tags" textOrTextArray.orNull).record "Note").property? "tags" ≠
        (((ofType none).setProperty "tags" textOrTextArray).record "Note").property? "tags" :=
  ⟨by decide, rfl, rfl, by decide⟩

end ApiDigest.Schema
