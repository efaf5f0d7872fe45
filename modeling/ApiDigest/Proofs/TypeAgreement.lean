/-
  Types beside pointers and arrays.

  The record of a property has its type from the variants of a node before the declared
  type, its pointer whatever type is declared beside it, and is an array if the node
  declares one, whatever its variants are.  So a node with several of these keywords may
  have a record whose fields do not agree.

  * `Schema.alternatives` are the types that the type of a node is made of;
  * `PropertyRecord.TypeAgrees`: the type of a record agrees with its pointer and its array
    flag;
  * `Document.typesAgree_iff`: that holds throughout a digest if, and only if, every property
    is of a node that is `Schema.Coherent`;
  * `Document.not_typesAgree_cars` is a document where it does not.
-/
import ApiDigest.Document.Reading
import ApiDigest.Proofs.Origins
import ApiDigest.Proofs.ValueTypes

namespace ApiDigest

/-! ## Members of a common type -/

namespace ValueType

variable {types : List ValueType} {a : BaseType}

theorem either_eq_base_iff (hne : types ≠ []) :
    either types = base a ↔ ∀ t ∈ types, t = base a := by
  rw [either_of_common? hne]
  cases hcommon : common? types with
  | none =>
    refine iff_of_false nofun fun hall => ?_
    obtain ⟨t, ht, u, hu, htu⟩ := exists_ne_of_common? hne hcommon
    exact htu ((hall t ht).trans (hall u hu).symm)
  | some t =>
    obtain ⟨ht, hall⟩ := common?_eq_some_iff.1 hcommon
    constructor
    · rintro rfl
      exact hall
    · intro hbase
      exact hbase t ht

theorem mem_members_either (hne : types ≠ []) :
    a ∈ (either types).members ↔ ∃ t ∈ types, a ∈ t.members := by
  rw [either_of_common? hne]
  cases hcommon : common? types with
  | none => exact List.mem_flatMap
  | some t =>
    obtain ⟨ht, hall⟩ := common?_eq_some_iff.1 hcommon
    constructor
    · intro ha
      exact ⟨t, ht, ha⟩
    · rintro ⟨u, hu, ha⟩
      rwa [hall u hu] at ha

/-- A value beside an array counts as an array; otherwise arrays are types like others. -/
theorem eitherOrList_cases (types : List ValueType) :
    eitherOrList types = either types ∨
      base .array ∈ types ∧ eitherOrList types = base .array := by
  rw [eitherOrList]
  cases hcommon : common? types with
  | some t =>
    have hne : types ≠ [] := List.ne_nil_of_mem (common?_eq_some_iff.1 hcommon).1
    rw [either_of_common? hne, hcommon]
    exact Or.inl rfl
  | none =>
    show (if _ then _ else _) = _ ∨ _ ∧ (if _ then _ else _) = _
    split_ifs with hlist
    · simp only [Bool.and_eq_true, decide_eq_true_eq] at hlist
      obtain ⟨t, ht, harray⟩ := List.countP_pos_iff.1 (hlist.2 ▸ Nat.one_pos)
      have hbase : t = base .array := by simpa [isArray] using harray
      exact Or.inr ⟨hbase ▸ ht, rfl⟩
    · exact Or.inl rfl

end ValueType

/-! ## Types that a node is made of -/

namespace Schema

variable {node : Schema}

/-- The types that the declared names stand for, null left out of a list. -/
def namedTypes (node : Schema) : List ValueType :=
  match node.declared with
  | none => []
  | some (.single name) => [node.namedType name]
  | some (.several names) => (names.filter (· ≠ "null")).map node.namedType

/-- The types of the real variants, if there are at least two variants, else those that are
    declared. -/
def alternatives (node : Schema) : List ValueType :=
  if node.variants.length < 2 then node.namedTypes else node.realVariants.map valueType

theorem declaredType_eq (node : Schema) : node.declaredType =
    if node.namedTypes = [] then node.untyped else .either node.namedTypes := by
  unfold declaredType namedTypes
  cases node.declared with
  | none => rfl
  | some declared =>
    cases declared with
    | single name => rfl
    | several names =>
      simp only [List.map_eq_nil_iff]
      cases names.filter (· ≠ "null") with
      | nil => rfl
      | cons name rest => exact (if_neg (List.cons_ne_nil _ _)).symm

/-- Without alternatives the type is that of objects, or not known. -/
theorem valueType_of_nil (h : node.alternatives = []) :
    node.valueType = .base .object ∨ node.valueType = .base .unknown := by
  unfold alternatives at h
  rw [valueType_eq]
  split_ifs at h ⊢
  · rw [declaredType_eq, if_pos h, untyped]
    split_ifs
    · exact Or.inl rfl
    · exact Or.inr rfl
  · rw [h]
    exact Or.inr rfl

theorem valueType_cases (hne : node.alternatives ≠ []) :
    node.valueType = .either node.alternatives ∨
      .base .array ∈ node.alternatives ∧ node.valueType = .base .array := by
  unfold alternatives at hne ⊢
  rw [valueType_eq]
  split_ifs at hne ⊢
  · rw [declaredType_eq, if_neg hne]
    exact Or.inl rfl
  · exact ValueType.eitherOrList_cases _

/-- **A node is of a base type** other than that of arrays if all alternatives are. -/
theorem valueType_eq_base_iff {a : BaseType} (hne : node.alternatives ≠ []) (ha : a ≠ .array) :
    node.valueType = .base a ↔ ∀ t ∈ node.alternatives, t = .base a := by
  rcases valueType_cases hne with htype | ⟨harray, htype⟩
  · rw [htype, ValueType.either_eq_base_iff hne]
  · rw [htype]
    constructor
    · intro h
      exact absurd (ValueType.base.inj h).symm ha
    · intro hall
      exact hall _ harray

/-- **A type has arrays among its members** if an alternative has. -/
theorem array_mem_valueType :
    .array ∈ node.valueType.members ↔ ∃ t ∈ node.alternatives, .array ∈ t.members := by
  by_cases hne : node.alternatives = []
  · rw [hne]
    refine iff_of_false ?_ nofun
    rcases valueType_of_nil hne with h | h <;> rw [h] <;> decide
  · rcases valueType_cases hne with htype | ⟨harray, htype⟩
    · rw [htype, ValueType.mem_members_either hne]
    · rw [htype]
      exact iff_of_true List.mem_cons_self ⟨_, harray, List.mem_cons_self⟩

theorem objectOrUnknown_iff :
    (node.valueType = .base .object ∨ node.valueType = .base .unknown) ↔
      (∀ t ∈ node.alternatives, t = .base .object) ∨
        ∀ t ∈ node.alternatives, t = .base .unknown := by
  by_cases hne : node.alternatives = []
  · rw [hne]
    exact iff_of_true (valueType_of_nil hne) (Or.inl nofun)
  · rw [valueType_eq_base_iff hne (by decide), valueType_eq_base_iff hne (by decide)]

theorem array_mem_namedTypes (h : node.declares "array" = true) :
    .base .array ∈ node.namedTypes := by
  have hname : node.namedType "array" = .base .array := by simp [namedType]
  rw [declares, List.contains_iff_mem, typeNames] at h
  rw [namedTypes]
  cases hdeclared : node.declared with
  | none =>
    rw [hdeclared] at h
    cases h
  | some declared =>
    rw [hdeclared] at h
    cases declared with
    | single name =>
      obtain rfl := List.mem_singleton.1 h
      exact hname ▸ List.mem_cons_self
    | several names => exact hname ▸ List.mem_map_of_mem (List.mem_filter.2 ⟨h, by decide⟩)

end Schema

/-! ## Agreement of a record -/

/-- A property that points at a schema is an object, or of a type that is not known, and one
    that is an array has arrays among the members of its type. -/
structure PropertyRecord.TypeAgrees (property : PropertyRecord) : Prop where
  ref : property.ref.isSome → property.type = .base .object ∨ property.type = .base .unknown
  isArray : property.isArray = true → .array ∈ property.type.members

/-- Beside a pointer at the schema table a node tells of objects alone, or of nothing that is
    known; and of the variants beside a declared array one may be an array. -/
structure Schema.Coherent (node : Schema) : Prop where
  pointer : node.unwrapNullable.tableName?.isSome →
    (∀ t ∈ node.unwrapNullable.alternatives, t = .base .object) ∨
      ∀ t ∈ node.unwrapNullable.alternatives, t = .base .unknown
  array : node.declares "array" = true → 2 ≤ node.variants.length →
    ∃ variant ∈ node.realVariants, .array ∈ variant.valueType.members

section
variable {node : Schema}

/-- An array has arrays among the members of its type unless it has other variants. -/
theorem Schema.array_of_isArrayNode_iff :
    (node.isArrayNode = true → .array ∈ node.valueType.members) ↔
      (node.declares "array" = true → 2 ≤ node.variants.length →
        ∃ variant ∈ node.realVariants, .array ∈ variant.valueType.members) := by
  rw [array_mem_valueType, alternatives]
  constructor
  · intro h hdeclares hmany
    rw [if_neg (Nat.not_lt.2 hmany)] at h
    simpa using h (by rw [isArrayNode, hdeclares, Bool.true_or])
  · intro h harray
    by_cases hdeclares : node.declares "array" = true
    · split_ifs with hfew
      · exact ⟨_, array_mem_namedTypes hdeclares, List.mem_cons_self⟩
      · simpa using h hdeclares (Nat.not_lt.1 hfew)
    · have htype : node.valueType = .base .array := by
        simpa [isArrayNode, hdeclares, ValueType.isArray] using harray
      exact array_mem_valueType.1 (htype ▸ List.mem_cons_self)

/-- **The record of a property agrees** if, and only if, its node is coherent. -/
theorem Schema.typeAgrees_propertyRecord_iff {siblings : List (String × Schema)}
    {required : List String} {name : String} :
    (propertyRecord siblings required name node).TypeAgrees ↔
      (resolveSibling siblings node).Coherent := by
  have hpointer : ((propertyRecord siblings required name node).type = .base .object ∨
      (propertyRecord siblings required name node).type = .base .unknown) ↔
      (∀ t ∈ (resolveSibling siblings node).unwrapNullable.alternatives, t = .base .object) ∨
        ∀ t ∈ (resolveSibling siblings node).unwrapNullable.alternatives, t = .base .unknown := by
    rw [← objectOrUnknown_iff, valueType_unwrapNullable]
    rfl
  constructor
  · rintro ⟨href, harray⟩
    exact ⟨fun h => hpointer.1 (href h), array_of_isArrayNode_iff.1 harray⟩
  · rintro ⟨hcoherent, harray⟩
    exact ⟨fun h => hpointer.2 (hcoherent h), array_of_isArrayNode_iff.2 harray⟩

end

/-! ## Digests -/

namespace Document

/-- The records of all properties agree. -/
def TypesAgree (document : Document) : Prop :=
  ∀ record ∈ document.digest.schemas, ∀ property ∈ record.properties, property.TypeAgrees

theorem map_properties (document : Document) :
    document.digest.schemas.map SchemaRecord.properties =
      document.recordedNodes.map Schema.propertyRecords := by
  rw [← List.forall₂_eq_eq_eq, List.forall₂_map_left_iff, List.forall₂_map_right_iff]
  exact document.forall₂_records.imp fun record node hrecord => by rw [hrecord]; rfl

/-- **The types of properties agree with their pointers and array flags** exactly if the node
    of every property, or the sibling that it points at, is coherent. -/
theorem typesAgree_iff (document : Document) :
    document.TypesAgree ↔ ∀ node ∈ document.recordedNodes, ∀ field ∈ node.properties,
      (Schema.resolveSibling node.properties field.2).Coherent := by
  have hnodes : document.TypesAgree ↔ ∀ properties ∈
      document.digest.schemas.map SchemaRecord.properties,
      ∀ property ∈ properties, property.TypeAgrees := by
    rw [List.forall_mem_map, TypesAgree]
  rw [hnodes, map_properties, List.forall_mem_map]
  refine forall₂_congr fun node _ => ?_
  rw [Schema.propertyRecords, List.forall_mem_map]
  exact forall₂_congr fun field _ => Schema.typeAgrees_propertyRecord_iff

/-- The owner of a car points at a person, and is declared to be a text. -/
def cars : Document := ofFields [("components", .obj [("schemas", .obj [("Car", .obj [
  ("properties", .obj [("owner", .obj [("$ref", .str "#/components/schemas/Person"),
    ("type", .str "string")])])])])])]

theorem not_typesAgree_cars : ¬cars.TypesAgree := by
  intro h
  have howner : ∃ record ∈ cars.digest.schemas, ∃ property ∈ record.properties,
      property.ref = some "Person" ∧ property.type = .base .string := by decide
  obtain ⟨record, hrecord, property, hproperty, href, htype⟩ := howner
  rcases (h record hrecord property hproperty).ref (by rw [href]; rfl) with hobject | hunknown
  · rw [htype] at hobject
    cases hobject
  · rw [htype] at hunknown
    cases hunknown

end Document
end ApiDigest
