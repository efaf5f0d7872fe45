/-
  Addresses in values.

  A hop leads from an object to the value of a key, or from an array to the item at a
  position; an address is a list of hops.  Forgetting positions, it is a place.

  * `Json.at?` is the value at an address;
  * `Json.at?_changeAt` is what stands there after a change of a class of places, and
    `Json.mem_objects_of_at?` and `Json.Lacks.notMem_address` say what an object at an
    address and a key on the way to it are.
-/
import ApiDigest.Proofs.Parts

namespace ApiDigest.Json

/-- A hop from a value to one of its parts. -/
inductive Hop where
  | key (name : String)
  | index (position : ℕ)
deriving DecidableEq

/-- The step of a hop. -/
def Hop.step : Hop → Step
  | key name => .key name
  | index _ => .item

/-- The part that a hop leads to. -/
def part? (value : Json) : Hop → Option Json
  | .key name => value.get? name
  | .index position => value.items?.bind (·[position]?)

/-- The value at an address. -/
def at? (value : Json) : List Hop → Option Json
  | [] => some value
  | hop :: address => (value.part? hop).bind fun part => part.at? address

variable {value part : Json} {fields : List (String × Json)} {address : List Hop} {hop : Hop}

@[simp] theorem at?_nil (value : Json) : value.at? [] = some value := rfl

theorem at?_cons (value : Json) (hop : Hop) (address : List Hop) :
    value.at? (hop :: address) = (value.part? hop).bind fun part => part.at? address := rfl

theorem at?_key (fields : List (String × Json)) (name : String) (address : List Hop) :
    (Json.obj fields).at? (.key name :: address) =
      (Fields.get? name fields).bind fun part => part.at? address := rfl

theorem at?_index (items : List Json) (position : ℕ) (address : List Hop) :
    (Json.arr items).at? (.index position :: address) =
      items[position]?.bind fun part => part.at? address := rfl

theorem at?_key_eq_some_iff {name : String} :
    value.at? (.key name :: address) = some part ↔
      ∃ fields next, value = .obj fields ∧ Fields.get? name fields = some next ∧
        next.at? address = some part := by
  constructor
  · intro h
    obtain ⟨next, hnext, hrest⟩ := Option.bind_eq_some_iff.1 h
    obtain ⟨fields, hfields, hget⟩ := Option.bind_eq_some_iff.1 hnext
    exact ⟨fields, next, eq_obj_of_fields? hfields, hget, hrest⟩
  · rintro ⟨fields, next, rfl, hget, hrest⟩
    rw [at?_key, hget]
    exact hrest

/-- A hop leads to a value of a field or to an item. -/
theorem part?_cases (h : value.part? hop = some part) :
    (∃ fields name, value = .obj fields ∧ hop = .key name ∧ Fields.get? name fields = some part) ∨
      ∃ items position, value = .arr items ∧ hop = .index position ∧
        items[position]? = some part := by
  cases hop with
  | key name =>
    obtain ⟨fields, hfields, hget⟩ := Option.bind_eq_some_iff.1 h
    exact Or.inl ⟨fields, name, eq_obj_of_fields? hfields, rfl, hget⟩
  | index position =>
    cases value with
    | arr items => exact Or.inr ⟨items, position, rfl, rfl, h⟩
    | _ => cases h

/-! ## Objects at addresses -/

theorem objects_part? (h : value.part? hop = some part) : part.objects ⊆ value.objects := by
  rcases part?_cases h with ⟨fields, name, rfl, -, hget⟩ | ⟨items, position, rfl, -, hitem⟩
  · exact objects_field (Fields.mem_of_get? hget)
  · exact objects_item (List.mem_of_getElem? hitem)

theorem objects_at? (h : value.at? address = some part) : part.objects ⊆ value.objects := by
  induction address generalizing value with
  | nil => rw [Option.some.inj h]; exact List.Subset.refl _
  | cons hop address ih =>
    obtain ⟨next, hnext, hrest⟩ := Option.bind_eq_some_iff.1 h
    exact List.Subset.trans (ih hrest) (objects_part? hnext)

theorem mem_objects_of_at? (h : value.at? address = some (.obj fields)) :
    fields ∈ value.objects :=
  objects_at? h List.mem_cons_self

theorem DistinctKeys.at? (hvalue : value.DistinctKeys) (h : value.at? address = some part) :
    part.DistinctKeys := fun object hobject => hvalue object (objects_at? h hobject)

/-- A key that no object has is not on the way to anything. -/
theorem Lacks.notMem_address {key : String} (hvalue : value.Lacks key)
    (h : value.at? address = some part) : Hop.key key ∉ address := by
  induction address generalizing value with
  | nil => exact List.not_mem_nil
  | cons hop address ih =>
    obtain ⟨next, hnext, hrest⟩ := Option.bind_eq_some_iff.1 h
    have hnextLacks : next.Lacks key := fun object hobject =>
      hvalue object (objects_part? hnext hobject)
    rw [List.mem_cons, not_or]
    refine ⟨?_, ih hnextLacks hrest⟩
    rintro rfl
    rcases part?_cases hnext with ⟨fields, name, rfl, hname, hget⟩ | ⟨_, _, _, hhop, _⟩
    · obtain rfl := Hop.key.inj hname
      exact hvalue.keys (Fields.mem_keys_of_mem (Fields.mem_of_get? hget))
    · cases hhop

/-! ## Changed values -/

/-- No place of the class is below another one. -/
def PrefixFree (place : List Step → Bool) : Prop :=
  ∀ steps more, place steps = true → more ≠ [] → place (steps ++ more) = false

theorem PrefixFree.under {place : List Step → Bool} (h : PrefixFree place) (step : Step) :
    PrefixFree (under step place) :=
  fun steps more => h (step :: steps) more

/-- **What stands at a place of the class is changed.** -/
theorem at?_changeAt (f : Json → Json) {place : List Step → Bool} (hfree : PrefixFree place)
    (haddress : place (address.map Hop.step) = true) (value : Json) :
    (changeAt f place value).at? address = (value.at? address).map f := by
  induction address generalizing place value with
  | nil => rw [changeAt_here haddress]; rfl
  | cons hop address ih =>
    have hhere : place [] = false := by
      rw [Bool.eq_false_iff]
      intro hroot
      have hbelow : place (hop.step :: address.map Hop.step) = false :=
        hfree [] _ hroot (List.cons_ne_nil _ _)
      rw [List.map_cons, hbelow] at haddress
      cases haddress
    have hnext := ih (hfree.under hop.step) haddress
    cases value with
    | obj fields =>
      cases hop with
      | key name =>
        rw [changeAt_obj hhere, at?_key, at?_key, Fields.get?_mapWithKey, Option.map_bind,
          Option.bind_map]
        exact congrArg _ (funext hnext)
      | index position => rw [changeAt_obj hhere]; rfl
    | arr items =>
      cases hop with
      | key name => rw [changeAt_arr hhere]; rfl
      | index position =>
        rw [changeAt_arr hhere, at?_index, at?_index, List.getElem?_map, Option.map_bind,
          Option.bind_map]
        exact congrArg _ (funext hnext)
    | _ => rw [changeAt_leaf hhere rfl rfl]; cases hop <;> rfl

end ApiDigest.Json
