/-
  What records say about arrays.

  Properties and bodies are classified separately, but say the same about the elements of
  an array: the name of their schema if their node points at one, else their type, and
  nothing if their node is not known.  Only arrays have elements, and whatever has the type
  of arrays is one.

  * `Elements` relates the node of elements to what a record says about them;
  * `PropertyRecord.ArrayFieldsAgree` and `ShapeRef.ArrayFieldsAgree`: the fields of a record
    on arrays agree with each other;
  * `PropertyRecord.TellsElements` and `ShapeRef.TellsElements`: they agree with the node that
    the record is of;
  * `Document.array_fields_agree`: both hold throughout a digest.
-/
import ApiDigest.Proofs.Origins

namespace ApiDigest

/-! ## Elements -/

/-- What a record says about elements with the given node. -/
inductive Elements : Option Schema → Option String → Option ValueType → Prop
  | unknown : Elements none none none
  | named {items : Schema} {name : String} :
      items.tableName? = some name → Elements (some items) (some name) none
  | typed {items : Schema} :
      items.tableName? = none → Elements (some items) none (some items.valueType)

theorem Elements.notBoth {items : Option Schema} {name : Option String}
    {type : Option ValueType} (h : Elements items name type) : name = none ∨ type = none := by
  cases h with
  | unknown => exact Or.inl rfl
  | named _ => exact Or.inr rfl
  | typed _ => exact Or.inl rfl

theorem Elements.eq_none {name : Option String} {type : Option ValueType}
    (h : Elements none name type) : name = none ∧ type = none := by
  cases h
  exact ⟨rfl, rfl⟩

theorem Schema.elements (items : Option Schema) :
    Elements items (elementRef items) (elementType items) := by
  cases items with
  | none => exact .unknown
  | some items =>
    rw [elementRef, elementType, Option.bind_some, Option.bind_some]
    cases h : items.tableName? with
    | none => exact .typed h
    | some name => exact .named h

theorem Schema.isArrayNode_of_valueType {node : Schema} (h : node.valueType = .base .array) :
    node.isArrayNode = true := by
  simp [isArrayNode, h, ValueType.isArray]

/-! ## Properties -/

/-- There are elements in arrays only, they have a name or a type, and the type of arrays
    makes an array. -/
structure PropertyRecord.ArrayFieldsAgree (property : PropertyRecord) : Prop where
  notBoth : property.itemRef = none ∨ property.itemType = none
  isArray_of_item : property.itemRef.isSome ∨ property.itemType.isSome → property.isArray = true
  isArray_of_type : property.type = .base .array → property.isArray = true

/-- The record of a property, given its node and those beside it: if the node, or the
    sibling that it points at, is an array, then the record is one and says what is known
    about the elements. -/
structure PropertyRecord.TellsElements (siblings : List (String × Schema))
    (property : PropertyRecord) (field : String × Schema) : Prop where
  name : property.name = field.1
  isArray : property.isArray = (Schema.resolveSibling siblings field.2).isArrayNode
  elements : property.isArray = true →
    Elements ((Schema.resolveSibling siblings field.2).arrayItems.map
      (Schema.resolveSibling siblings)) property.itemRef property.itemType

namespace Schema

/-- The node of the elements of a property, as its record has it. -/
def elementsNode (siblings : List (String × Schema)) (node : Schema) : Option Schema :=
  if node.isArrayNode then node.arrayItems.map (resolveSibling siblings) else none

variable (siblings : List (String × Schema)) (required : List String) (name : String)
  (node : Schema)

theorem elements_propertyRecord : Elements (elementsNode siblings (resolveSibling siblings node))
    (propertyRecord siblings required name node).itemRef
    (propertyRecord siblings required name node).itemType :=
  elements _

theorem arrayFieldsAgree_propertyRecord :
    (propertyRecord siblings required name node).ArrayFieldsAgree where
  notBoth := (elements_propertyRecord siblings required name node).notBoth
  isArray_of_item h := by
    by_contra hnot
    replace hnot : ¬(resolveSibling siblings node).isArrayNode = true := hnot
    have helements := elements_propertyRecord siblings required name node
    rw [elementsNode, if_neg hnot] at helements
    obtain ⟨href, htype⟩ := helements.eq_none
    rw [href, htype] at h
    rcases h with h | h <;> cases h
  isArray_of_type h := isArrayNode_of_valueType h

theorem tellsElements_propertyRecord :
    (propertyRecord siblings required name node).TellsElements siblings (name, node) where
  name := rfl
  isArray := rfl
  elements h := by
    replace h : (resolveSibling siblings node).isArrayNode = true := h
    have helements := elements_propertyRecord siblings required name node
    rwa [elementsNode, if_pos h] at helements

end Schema

/-! ## Shapes -/

/-- The elements of a shape have a name or a type, and the type of arrays makes an array. -/
structure ShapeRef.ArrayFieldsAgree (shape : ShapeRef) : Prop where
  notBoth : shape.itemRef = none ∨ shape.itemType = none
  notPrimitive : shape ≠ .primitive (.base .array)

/-- The shape of a schema, wrappers for null aside: it is an array if the node is one that is
    neither described in place nor a pointer, and then it says what is known about the
    elements. -/
structure ShapeRef.TellsElements (shape : ShapeRef) (schema : Schema) : Prop where
  isArray : shape.isArray = true ↔ schema.unwrapNullable.inPlace = false ∧
    schema.unwrapNullable.unwrapNullable.tableName? = none ∧
    schema.unwrapNullable.unwrapNullable.isArrayNode = true
  elements : shape.isArray = true →
    Elements schema.unwrapNullable.unwrapNullable.arrayItems shape.itemRef shape.itemType

/-- The three kinds of shapes that a node may have. -/
theorem Schema.shapeRef_cases (schema : Schema) :
    (∃ name, schema.unwrapNullable.tableName? = some name ∧ schema.shapeRef = .named name) ∨
    (schema.unwrapNullable.tableName? = none ∧ schema.unwrapNullable.isArrayNode = true ∧
      schema.shapeRef = .array (elementRef schema.unwrapNullable.arrayItems)
        (elementType schema.unwrapNullable.arrayItems)) ∨
    (schema.unwrapNullable.tableName? = none ∧ schema.unwrapNullable.isArrayNode = false ∧
      schema.shapeRef = .primitive schema.unwrapNullable.valueType) := by
  simp only [shapeRef]
  cases schema.unwrapNullable.tableName? with
  | some name => exact Or.inl ⟨name, rfl, rfl⟩
  | none =>
    cases schema.unwrapNullable.isArrayNode with
    | true => exact Or.inr (Or.inl ⟨rfl, rfl, rfl⟩)
    | false => exact Or.inr (Or.inr ⟨rfl, rfl, rfl⟩)

theorem Schema.arrayFieldsAgree_shapeRef (schema : Schema) : schema.shapeRef.ArrayFieldsAgree := by
  rcases schema.shapeRef_cases with ⟨name, -, hshape⟩ | ⟨-, -, hshape⟩ | ⟨-, hnot, hshape⟩
  · rw [hshape]
    exact ⟨Or.inl rfl, nofun⟩
  · rw [hshape]
    exact ⟨(elements _).notBoth, nofun⟩
  · rw [hshape]
    refine ⟨Or.inl rfl, fun heq => ?_⟩
    rw [isArrayNode_of_valueType (ShapeRef.primitive.inj heq)] at hnot
    cases hnot

theorem ShapeRef.Describes.tellsElements {shape : ShapeRef} {schema : Schema}
    (h : shape.Describes schema) : shape.TellsElements schema := by
  cases h with
  | name name hplace => exact ⟨by simp [ShapeRef.isArray, hplace], nofun⟩
  | shape hplace =>
    rcases schema.unwrapNullable.shapeRef_cases with
      ⟨name, hname, hshape⟩ | ⟨hname, harray, hshape⟩ | ⟨hname, harray, hshape⟩
    · rw [hshape]
      exact ⟨by simp [ShapeRef.isArray, hname], nofun⟩
    · rw [hshape]
      exact ⟨by simp [ShapeRef.isArray, hplace, hname, harray], fun _ => Schema.elements _⟩
    · rw [hshape]
      exact ⟨by simp [ShapeRef.isArray, harray], nofun⟩

/-! ## Digests -/

theorem rel_imp {α β : Type} {R S : α → β → Prop} (himp : ∀ a b, R a b → S a b)
    {a : Option α} {b : Option β} (h : Option.Rel R a b) : Option.Rel S a b := by
  cases h with
  | none => exact .none
  | some h => exact .some (himp _ _ h)

/-- **What a digest says about arrays agrees**, in every property and every shape, with
    itself and with the nodes that the records are of. -/
theorem Document.array_fields_agree (document : Document) :
    (∀ record ∈ document.digest.schemas, ∀ property ∈ record.properties,
      property.ArrayFieldsAgree) ∧
    (∀ op ∈ document.digest.operations, ∀ shape ∈ op.body.toList ++ op.response.toList,
      shape.ArrayFieldsAgree) ∧
    List.Forall₂ (fun record node => List.Forall₂
        (PropertyRecord.TellsElements node.properties) record.properties node.properties)
      document.digest.schemas document.recordedNodes ∧
    List.Forall₂ (fun op visit =>
        Option.Rel ShapeRef.TellsElements op.body visit.operation.bodySchema? ∧
        Option.Rel ShapeRef.TellsElements op.response visit.operation.responseSchema?)
      document.digest.operations document.visits := by
  refine ⟨?_, ?_, ?_, ?_⟩
  · intro record hrecord property hproperty
    obtain ⟨node, hnode⟩ := exists_node hrecord
    rw [hnode] at hproperty
    obtain ⟨field, -, rfl⟩ := List.mem_map.1 hproperty
    exact Schema.arrayFieldsAgree_propertyRecord _ _ _ _
  · intro op hop shape hshape
    obtain ⟨name, rfl⟩ | ⟨node, rfl⟩ := shape_cases hop hshape
    · exact ⟨Or.inl rfl, nofun⟩
    · exact node.arrayFieldsAgree_shapeRef
  · refine document.forall₂_records.imp fun record node hrecord => ?_
    rw [hrecord]
    show List.Forall₂ _ node.propertyRecords _
    rw [Schema.propertyRecords, List.forall₂_map_left_iff]
    exact List.forall₂_same.2 fun field _ => Schema.tellsElements_propertyRecord _ _ _ _
  · refine document.forall₂_operations.imp fun op visit hop => ⟨?_, ?_⟩
    · exact rel_imp (fun _ _ h => h.tellsElements) hop.body
    · exact rel_imp (fun _ _ h => h.tellsElements) hop.response

end ApiDigest
