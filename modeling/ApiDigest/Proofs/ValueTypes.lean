/-
  Types of values and their texts.

  The text of a type is the names of its members with bars between them, so a union of a
  single member would read like that member, and one of none like nothing.  The type of a
  node is never such a union: what falls together is no union, and what does not has
  members that differ.

  * `ValueType.Reduced` holds of base types, and of unions of members that are not all
    equal;
  * `ValueType.split_render`: the text of a reduced type, cut at the bars, gives its members,
    so that by `ValueType.eq_of_render` reduced types with the same text are the same;
  * `Schema.valueType_eq` is the type of a node in terms of its real variants,
    `Schema.reduced_valueType` says that it is reduced, and `Schema.valueType_shape` what
    that means for its text.
-/
import ApiDigest.Digest.ValueType
import ApiDigest.Proofs.JoinedTexts
import Mathlib.Data.List.Basic

namespace ApiDigest

/-! ## Names of base types -/

theorem BaseType.eq_of_name {a b : BaseType} (h : a.name = b.name) : a = b := by
  revert h
  cases a <;> cases b <;> decide

theorem BaseType.mem_all (a : BaseType) : a ∈ all := by
  cases a <;> decide

theorem BaseType.blank_notMem_name (a : BaseType) : ' ' ∉ a.name.toList := by
  cases a <;> decide

namespace ValueType

variable {t u : ValueType} {a : BaseType} {as : List BaseType} {types : List ValueType}

/-! ## Reduced types -/

/-- A base type, or a union whose members are not all equal. -/
def Reduced : ValueType → Prop
  | base _ => True
  | union as => ∃ a ∈ as, ∃ b ∈ as, a ≠ b

theorem Reduced.exists_mem (h : t.Reduced) : ∃ a, a ∈ t.members := by
  cases t with
  | base a => exact ⟨a, List.mem_singleton_self a⟩
  | union as =>
    obtain ⟨a, ha, -⟩ := h
    exact ⟨a, ha⟩

/-- A reduced type with a single member is that member. -/
theorem Reduced.eq_base (h : t.Reduced) (ha : ∀ b ∈ t.members, b = a) : t = base a := by
  cases t with
  | base b => rw [ha b (List.mem_singleton_self b)]
  | union as =>
    obtain ⟨b, hb, c, hc, hne⟩ := h
    exact absurd ((ha b hb).trans (ha c hc).symm) hne

theorem Reduced.two_le_length (h : (union as).Reduced) : 2 ≤ as.length := by
  obtain ⟨a, ha, b, hb, hne⟩ := h
  match as, ha, hb with
  | [c], ha, hb =>
    exact absurd ((List.mem_singleton.1 ha).trans (List.mem_singleton.1 hb).symm) hne
  | _ :: _ :: _, _, _ => exact Nat.le_add_left 2 _

theorem Reduced.eq_of_members (ht : t.Reduced) (hu : u.Reduced) (h : t.members = u.members) :
    t = u := by
  cases t with
  | base a => exact (hu.eq_base fun b hb => by rw [← h] at hb; exact List.mem_singleton.1 hb).symm
  | union as =>
    cases u with
    | base b => exact ht.eq_base fun c hc => by rw [h] at hc; exact List.mem_singleton.1 hc
    | union bs => exact congrArg union h

/-! ## Texts of types -/

/-- **The text of a type, cut at the bars,** gives the names of its members. -/
theorem split_render (h : t.Reduced) :
    (t.render.split " | ").toList.map String.Slice.copy = t.members.map BaseType.name := by
  refine Text.split_intercalate rfl ?_ fun name hname => ?_
  · obtain ⟨a, ha⟩ := h.exists_mem
    exact List.ne_nil_of_mem (List.mem_map_of_mem ha)
  · obtain ⟨a, -, rfl⟩ := List.mem_map.1 hname
    exact a.blank_notMem_name

/-- **Reduced types are told apart by their texts.** -/
theorem eq_of_render (ht : t.Reduced) (hu : u.Reduced) (h : t.render = u.render) : t = u := by
  have hnames : t.members.map BaseType.name = u.members.map BaseType.name := by
    rw [← split_render ht, ← split_render hu, h]
  have hinj : Function.Injective BaseType.name := fun _ _ => BaseType.eq_of_name
  exact ht.eq_of_members hu (hinj.list_map hnames)

/-- A union of one member reads like that member, so other types are not told apart. -/
example : (union [.string]).render = (base .string).render := by decide

/-! ## Several types as one -/

theorem common?_eq_some_iff : common? types = some t ↔ t ∈ types ∧ ∀ u ∈ types, u = t := by
  cases types with
  | nil => simp [common?]
  | cons u rest =>
    rw [common?]
    split_ifs with hall
    · simp only [List.all_eq_true, decide_eq_true_eq] at hall
      constructor
      · rintro ⟨⟩
        exact ⟨List.mem_cons_self, List.forall_mem_cons.2 ⟨rfl, hall⟩⟩
      · rintro ⟨-, heq⟩
        rw [heq u List.mem_cons_self]
    · refine iff_of_false nofun fun ⟨_, heq⟩ => hall ?_
      simp only [List.all_eq_true, decide_eq_true_eq]
      exact fun v hv => (heq v (List.mem_cons_of_mem u hv)).trans (heq u List.mem_cons_self).symm

/-- Types have nothing in common if two of them differ. -/
theorem exists_ne_of_common? (hne : types ≠ []) (h : common? types = none) :
    ∃ t ∈ types, ∃ u ∈ types, t ≠ u := by
  obtain ⟨u, hu⟩ := List.exists_mem_of_ne_nil types hne
  by_contra hsame
  have hall : ∀ t ∈ types, t = u := fun t ht => by
    by_contra htu
    exact hsame ⟨t, ht, u, hu, htu⟩
  rw [common?_eq_some_iff.2 ⟨hu, hall⟩] at h
  cases h

theorem either_of_common? (hne : types ≠ []) : either types = (common? types).getD (join types) := by
  cases types with
  | nil => exact absurd rfl hne
  | cons t rest => rfl

theorem reduced_join (hall : ∀ t ∈ types, t.Reduced) (hne : ∃ t ∈ types, ∃ u ∈ types, t ≠ u) :
    (join types).Reduced := by
  obtain ⟨t, ht, u, hu, htu⟩ := hne
  obtain ⟨a, ha⟩ := (hall t ht).exists_mem
  have hmem : ∀ {v : ValueType} {c : BaseType}, v ∈ types → c ∈ v.members →
      c ∈ types.flatMap members := fun hv hc => List.mem_flatMap.2 ⟨_, hv, hc⟩
  by_contra hsame
  -- if all members were equal, both types would be that member
  have heq : ∀ c ∈ types.flatMap members, c = a := fun c hc => by
    by_contra hca
    exact hsame ⟨c, hc, a, hmem ht ha, hca⟩
  have hta := (hall t ht).eq_base fun c hc => heq c (hmem ht hc)
  have hua := (hall u hu).eq_base fun c hc => heq c (hmem hu hc)
  exact htu (hta.trans hua.symm)

theorem reduced_either (hall : ∀ t ∈ types, t.Reduced) : (either types).Reduced := by
  by_cases hne : types = []
  · subst hne
    trivial
  · rw [either_of_common? hne]
    cases hcommon : common? types with
    | none => exact reduced_join hall (exists_ne_of_common? hne hcommon)
    | some u => exact hall u (common?_eq_some_iff.1 hcommon).1

theorem reduced_eitherOrList (hall : ∀ t ∈ types, t.Reduced) : (eitherOrList types).Reduced := by
  rw [eitherOrList]
  split
  · exact hall _ (common?_eq_some_iff.1 ‹_›).1
  · split_ifs
    · trivial
    · exact reduced_either hall

end ValueType

/-! ## Types of nodes -/

namespace Schema

open ValueType (Reduced)

theorem reduced_namedType (schema : Schema) (name : String) : (schema.namedType name).Reduced := by
  unfold namedType
  split_ifs <;> trivial

theorem reduced_declaredType (schema : Schema) : schema.declaredType.Reduced := by
  unfold declaredType
  split
  · exact schema.reduced_namedType _
  · split
    · trivial
    · refine ValueType.reduced_either fun t ht => ?_
      obtain ⟨name, -, rfl⟩ := List.mem_map.1 ht
      exact schema.reduced_namedType name
  · trivial

theorem realTypes_eq : ∀ variants : List Schema, realTypes variants =
    (variants.filter fun variant => !variant.isNullSentinel).map valueType
  | [] => rfl
  | variant :: rest => by
    rw [realTypes, realTypes_eq rest]
    cases h : variant.isNullSentinel <;> simp [h]

/-- **The type of a node** is that of its real variants, if it has at least two variants. -/
theorem valueType_eq (schema : Schema) : schema.valueType =
    if schema.variants.length < 2 then schema.declaredType
    else .eitherOrList (schema.realVariants.map valueType) := by
  cases schema
  rw [valueType, realTypes_eq]
  rfl

theorem valueType_of_two_le {schema : Schema} (h : 2 ≤ schema.variants.length) :
    schema.valueType = .eitherOrList (schema.realVariants.map valueType) := by
  rw [valueType_eq, if_neg (Nat.not_lt.2 h)]

/-- A wrapper for null has the type of the node in it. -/
theorem valueType_unwrapNullable (schema : Schema) :
    schema.unwrapNullable.valueType = schema.valueType := by
  rw [unwrapNullable]
  split_ifs with hfew
  · rfl
  · rw [valueType_of_two_le (Nat.not_lt.1 hfew)]
    split
    · rename_i only hreal
      rw [hreal]
      rfl
    · rw [valueType_of_two_le (Nat.not_lt.1 hfew)]

mutual

/-- **The type of a node is reduced.** -/
theorem reduced_valueType : ∀ schema : Schema, schema.valueType.Reduced
  | ⟨_, _, _, _, _, _, _, variants, _, _⟩ => by
    rw [valueType]
    split_ifs
    · exact reduced_declaredType _
    · exact ValueType.reduced_eitherOrList (reduced_realTypes variants)

theorem reduced_realTypes : ∀ variants : List Schema, ∀ t ∈ realTypes variants, t.Reduced
  | [] => by simp [realTypes]
  | variant :: rest => by
    rw [realTypes]
    split_ifs
    · exact reduced_realTypes rest
    · exact List.forall_mem_cons.2 ⟨reduced_valueType variant, reduced_realTypes rest⟩

end

/-- **The type of a node** is a base type, or a union of two or more base types that are not
    all equal.  Its text, cut at the bars, gives its members back, and no other type that a
    node has reads the same. -/
theorem valueType_shape (schema : Schema) :
    ((∃ a ∈ BaseType.all, schema.valueType = .base a) ∨
      ∃ as, schema.valueType = .union as ∧ 2 ≤ as.length ∧ ∃ a ∈ as, ∃ b ∈ as, a ≠ b) ∧
    (schema.valueType.render.split " | ").toList.map String.Slice.copy =
      schema.valueType.members.map BaseType.name ∧
    ∀ other : Schema, schema.valueType.render = other.valueType.render ↔
      schema.valueType = other.valueType := by
  have hreduced := schema.reduced_valueType
  refine ⟨?_, ValueType.split_render hreduced, fun other => ⟨fun h => ?_, fun h => by rw [h]⟩⟩
  · cases htype : schema.valueType with
    | base a => exact Or.inl ⟨a, a.mem_all, rfl⟩
    | union as =>
      rw [htype] at hreduced
      exact Or.inr ⟨as, rfl, hreduced.two_le_length, hreduced⟩
  · exact ValueType.eq_of_render hreduced other.reduced_valueType h

end Schema
end ApiDigest
