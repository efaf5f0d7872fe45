/-
  The search for a free name.

  The candidates for a base are pairwise different, so among one more of them
  than names are taken there is a free one, and the search stops at the first.

  * `IsFirstFree taken base name` says which name the search has to give;
  * `freeName_isFirstFree`: it gives that name, and `IsFirstFree.eq`: no other
    name would do.
-/
import ApiDigest.Naming
import Mathlib.Data.List.Nodup
import Mathlib.Data.List.Perm.Subperm
import Std.Data.String.ToNat

namespace ApiDigest.Naming

/-- A name is the first of `base`, `base2`, `base3`, ... that is not taken. -/
def IsFirstFree (taken : List String) (base name : String) : Prop :=
  ∃ k, name = candidate base k ∧ name ∉ taken ∧ ∀ j < k, candidate base j ∈ taken

/-! ## Candidates -/

/-- **Candidates with different numbers differ.** -/
theorem candidate_injective (base : String) : Function.Injective (candidate base) := by
  intro i j h
  cases i with
  | zero =>
    cases j with
    | zero => rfl
    | succ j => exact absurd h.symm (by simp [candidate])
  | succ i =>
    cases j with
    | zero => exact absurd h (by simp [candidate])
    | succ j =>
      have hd : toString (i + 2) = toString (j + 2) := (String.append_right_inj base).1 h
      have := Nat.repr_injective hd
      omega

/-- Among one more candidate than names are taken, one is free. -/
theorem exists_candidate_notMem (taken : List String) (base : String) :
    ∃ k ≤ taken.length, candidate base k ∉ taken := by
  by_contra hall
  push Not at hall
  have hsub : (List.range (taken.length + 1)).map (candidate base) ⊆ taken := by
    intro name hname
    obtain ⟨k, hk, rfl⟩ := List.mem_map.1 hname
    exact hall k (by simpa [Nat.lt_succ_iff] using hk)
  have hnd : ((List.range (taken.length + 1)).map (candidate base)).Nodup :=
    List.Nodup.map (candidate_injective base) List.nodup_range
  have hlen := (List.subperm_of_subset hnd hsub).length_le
  simp only [List.length_map, List.length_range] at hlen
  omega

/-! ## The search -/

variable {taken taken' : List String} {base name : String}

/-- If a candidate from number `k` on is free within the tries, the search gives
    the first such. -/
theorem freeNameFrom_first : ∀ (tries : ℕ) {k m : ℕ}, k ≤ m → m ≤ k + tries →
    candidate base m ∉ taken →
    ∃ j, freeNameFrom taken base tries k = candidate base j ∧ candidate base j ∉ taken ∧
      ∀ i, k ≤ i → i < j → candidate base i ∈ taken
  | 0, k, m, _, hm, hfree => by
    obtain rfl : m = k := by omega
    exact ⟨m, rfl, hfree, fun i h₁ h₂ => by omega⟩
  | tries + 1, k, m, hkm, hm, hfree => by
    rw [freeNameFrom]
    split_ifs with hk
    · -- the candidate tried is taken, so the free one comes later
      have hne : k ≠ m := fun e => hfree (e ▸ hk)
      obtain ⟨j, hj, hjfree, hjlast⟩ :=
        freeNameFrom_first tries (k := k + 1) (by omega) (by omega) hfree
      refine ⟨j, hj, hjfree, fun i h₁ h₂ => ?_⟩
      rcases Nat.eq_or_lt_of_le h₁ with rfl | h₁
      · exact hk
      · exact hjlast i h₁ h₂
    · exact ⟨k, rfl, hk, fun i h₁ h₂ => by omega⟩

/-- **The search gives the first free candidate.** -/
theorem freeName_isFirstFree (taken : List String) (base : String) :
    IsFirstFree taken base (freeName taken base) := by
  obtain ⟨m, hm, hfree⟩ := exists_candidate_notMem taken base
  obtain ⟨j, hj, hjfree, hlast⟩ :=
    freeNameFrom_first taken.length (Nat.zero_le m) (by omega) hfree
  exact ⟨j, hj, by rw [freeName, hj]; exact hjfree, fun i hi => hlast i (Nat.zero_le i) hi⟩

theorem freeName_notMem (taken : List String) (base : String) : freeName taken base ∉ taken := by
  obtain ⟨_, _, hfree, _⟩ := freeName_isFirstFree taken base
  exact hfree

/-- There is only one first free candidate. -/
theorem IsFirstFree.eq (h : IsFirstFree taken base name) : name = freeName taken base := by
  obtain ⟨i, rfl, hi, hilast⟩ := h
  obtain ⟨j, hj, hjfree, hjlast⟩ := freeName_isFirstFree taken base
  rw [hj] at hjfree ⊢
  rcases Nat.lt_trichotomy i j with hlt | rfl | hlt
  · exact absurd (hjlast i hlt) hi
  · rfl
  · exact absurd (hilast j hlt) hjfree

/-- Only the set of the taken names matters. -/
theorem IsFirstFree.congr (h : IsFirstFree taken base name) (ht : ∀ x, x ∈ taken ↔ x ∈ taken') :
    IsFirstFree taken' base name := by
  obtain ⟨k, hk, hfree, hlast⟩ := h
  exact ⟨k, hk, fun hx => hfree ((ht _).2 hx), fun j hj => (ht _).1 (hlast j hj)⟩

theorem freeName_congr (ht : ∀ x, x ∈ taken ↔ x ∈ taken') (base : String) :
    freeName taken base = freeName taken' base :=
  ((freeName_isFirstFree taken base).congr ht).eq

/-- A base that is free is given as it is. -/
theorem freeName_of_notMem (h : base ∉ taken) : freeName taken base = base :=
  (IsFirstFree.eq ⟨0, rfl, h, fun j hj => absurd hj (Nat.not_lt_zero j)⟩).symm

end ApiDigest.Naming
