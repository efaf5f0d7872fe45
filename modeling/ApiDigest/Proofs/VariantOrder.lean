/-
  The order of variants.

  The type of a union is made of the types of its real variants, one after another.  So
  sentinels do not show in it, wherever they stand, and the order of the variants shows in
  the order of its members alone.

  * `ValueType.Reorders` relates types that differ in the order of members, and
    `ValueType.reorders_eitherOrList` joins types in another order;
  * `Schema.WithSentinels` relates a list of variants to one with sentinels put in;
  * `Schema.valueType_setVariants`: sentinels and order do not matter.
-/
import ApiDigest.Proofs.NullWrappers
import ApiDigest.Proofs.ValueTypes

namespace ApiDigest

/-! ## Types in another order -/

namespace ValueType

variable {types others : List ValueType}

/-- The second type is the first one, but for the order of the members of a union. -/
inductive Reorders : ValueType → ValueType → Prop
  | base (a : BaseType) : Reorders (base a) (base a)
  | union {as bs : List BaseType} (h : bs.Perm as) : Reorders (union as) (union bs)

theorem Reorders.refl (t : ValueType) : Reorders t t := by
  cases t with
  | base a => exact .base a
  | union as => exact .union (.refl as)

theorem common?_perm (h : others.Perm types) : common? others = common? types := by
  refine Option.ext fun t => ?_
  simp only [common?_eq_some_iff, h.mem_iff]

theorem reorders_either (h : others.Perm types) : Reorders (either types) (either others) := by
  by_cases hne : types = []
  · subst hne
    rw [h.eq_nil]
    exact .refl _
  · have hne' : others ≠ [] := by
      rintro rfl
      exact hne h.symm.eq_nil
    rw [either_of_common? hne, either_of_common? hne', common?_perm h]
    cases common? types with
    | none => exact .union (h.flatMap_right members)
    | some t => exact .refl t

/-- **Types in another order** are joined to the same type, but for the order of members. -/
theorem reorders_eitherOrList (h : others.Perm types) :
    Reorders (eitherOrList types) (eitherOrList others) := by
  rw [eitherOrList, eitherOrList, common?_perm h, h.length_eq, h.countP_eq]
  cases common? types with
  | some t => exact .refl t
  | none =>
    show Reorders (if _ then _ else _) (if _ then _ else _)
    split_ifs
    · exact .base .array
    · exact reorders_either h

/-- The members come in the order of the types. -/
example : eitherOrList [base .string, union [.boolean, .number]] =
      union [.string, .boolean, .number] ∧
    eitherOrList [union [.boolean, .number], base .string] =
      union [.boolean, .number, .string] := by decide

end ValueType

/-! ## Other variants -/

namespace Schema

variable {schema : Schema} {variants more others : List Schema}

/-- The node with other variants. -/
def setVariants (schema : Schema) (variants : List Schema) : Schema := { schema with variants }

/-- The second list is the first one with sentinels put in, at any places. -/
inductive WithSentinels : List Schema → List Schema → Prop
  | nil : WithSentinels [] []
  | keep (variant : Schema) {variants more : List Schema} :
      WithSentinels variants more → WithSentinels (variant :: variants) (variant :: more)
  | put {sentinel : Schema} {variants more : List Schema} :
      sentinel.isNullSentinel = true → WithSentinels variants more →
      WithSentinels variants (sentinel :: more)

theorem WithSentinels.length_le (h : WithSentinels variants more) :
    variants.length ≤ more.length := by
  induction h with
  | nil => exact Nat.le_refl 0
  | keep _ _ ih => exact Nat.succ_le_succ ih
  | put _ _ ih => exact Nat.le_succ_of_le ih

/-- The real variants are the same. -/
theorem WithSentinels.realVariants (h : WithSentinels schema.variants more) :
    (schema.setVariants more).realVariants = schema.realVariants := by
  show more.filter _ = schema.variants.filter _
  generalize schema.variants = variants at h ⊢
  induction h with
  | nil => rfl
  | keep variant _ ih => rw [List.filter_cons, List.filter_cons, ih]
  | put hnull _ ih => rw [List.filter_cons_of_neg (by simp [hnull]), ih]

/-- **The type of a union** stays when sentinels are put in between its variants, and in
    another order of the variants it is the same but for the order of members. -/
theorem valueType_setVariants (h : 2 ≤ schema.variants.length) :
    (∀ more, WithSentinels schema.variants more →
      (schema.setVariants more).valueType = schema.valueType) ∧
    ∀ others, others.Perm schema.variants →
      schema.valueType.Reorders (schema.setVariants others).valueType := by
  rw [valueType_of_two_le h]
  constructor
  · intro more hmore
    have hlength : 2 ≤ (schema.setVariants more).variants.length := Nat.le_trans h hmore.length_le
    rw [valueType_of_two_le hlength, hmore.realVariants]
  · intro others hothers
    have hlength : 2 ≤ (schema.setVariants others).variants.length := by
      rwa [← hothers.length_eq] at h
    rw [valueType_of_two_le hlength]
    exact ValueType.reorders_eitherOrList ((hothers.filter _).map valueType)

/-- A text, or a union of a truth value and a number. -/
def answer : Schema :=
  ofVariants [ofType (some (.single "string")),
    ofVariants [ofType (some (.single "boolean")), ofType (some (.single "integer"))]]

/-- The variants of an answer among sentinels of all three kinds. -/
def answerOrNull : List Schema :=
  [ofType (some (.several ["null"])),
    ofType (some (.single "string")),
    { ofType none with negated := some (.obj []) },
    ofVariants [ofType (some (.single "boolean")), ofType (some (.single "integer"))],
    { ofType none with literals := some [.string "null"], nullable := some true }]

theorem valueType_setVariants_answer :
    2 ≤ answer.variants.length ∧ WithSentinels answer.variants answerOrNull ∧
      (answer.setVariants answerOrNull).valueType = answer.valueType ∧
      answer.variants.reverse.Perm answer.variants ∧
      answer.valueType.Reorders (answer.setVariants answer.variants.reverse).valueType := by
  have hlength : 2 ≤ answer.variants.length := Nat.le_refl 2
  have hput : WithSentinels answer.variants answerOrNull :=
    .put (by decide) (.keep _ (.put (by decide) (.keep _ (.put (by decide) .nil))))
  have hperm : answer.variants.reverse.Perm answer.variants := List.reverse_perm _
  obtain ⟨hsentinels, horder⟩ := valueType_setVariants hlength
  exact ⟨hlength, hput, hsentinels _ hput, hperm, horder _ hperm⟩

end Schema
end ApiDigest
