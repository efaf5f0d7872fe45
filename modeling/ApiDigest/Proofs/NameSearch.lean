/-
  The search for a free name, candidate by candidate.

  The search puts one candidate after another into the set of the taken names and ends with
  the first that was not there.  It counts in a machine word, and nothing in it says when to
  stop: it stops since candidates differ, so that one more of them than names are taken
  cannot all be taken.

  * `Search` is a state of the search, and `Search.step` tries one candidate;
  * `Search.iterate_step`: as long as candidates are taken, the search goes through
    `Search.trying`;
  * `freeName_of_search`: the search ends with `freeName`, and what name that is.
-/
import ApiDigest.Proofs.FreeNames
import Mathlib.Data.Finset.Card
import Mathlib.Data.Finset.Dedup
import Mathlib.Logic.Function.Iterate

namespace ApiDigest.Naming

/-- A state of the search for a free name. -/
inductive Search where
  /-- The base itself is tried next. -/
  | start (taken : Finset String)
  /-- The base with the counter behind it is tried next. -/
  | counting (taken : Finset String) (counter : UInt64)
  /-- A name was free, and now it is taken. -/
  | found (name : String) (taken : Finset String)
  /-- The counter has no next value. -/
  | overflow

namespace Search

/-- Tries one candidate: it is put into the set, and the search is over if it was not there. -/
def step (base : String) : Search → Search
  | start taken =>
    if base ∈ taken then counting (insert base taken) 2 else found base (insert base taken)
  | counting taken counter =>
    let name := base ++ toString counter.toNat
    if name ∈ taken then
      if counter.toNat + 1 < UInt64.size then counting (insert name taken) (counter + 1)
      else overflow
    else found name (insert name taken)
  | ended => ended

/-- The search is not over. -/
def Goes : Search → Prop
  | start _ | counting _ _ => True
  | found _ _ | overflow => False

/-- The state in which the candidate with a number is tried next. -/
def trying (taken : Finset String) : ℕ → Search
  | 0 => start taken
  | n + 1 => counting taken (UInt64.ofNat (n + 2))

theorem goes_trying (taken : Finset String) (n : ℕ) : (trying taken n).Goes := by
  cases n <;> trivial

variable {taken : Finset String} {base : String} {n : ℕ}

/-! ## One candidate -/

theorem step_trying_of_mem (h : candidate base n ∈ taken) (hn : n + 2 < UInt64.size) :
    step base (trying taken n) = trying taken (n + 1) := by
  cases n with
  | zero =>
    rw [candidate] at h
    rw [trying, step, if_pos h, Finset.insert_eq_of_mem h]
    rfl
  | succ n =>
    have hcounter : (UInt64.ofNat (n + 2)).toNat = n + 2 := UInt64.toNat_ofNat_of_lt' (by omega)
    rw [candidate] at h
    rw [trying, step, hcounter, if_pos h, if_pos (by omega),
      Finset.insert_eq_of_mem h, trying, UInt64.ofNat_add (n + 2) 1]
    rfl

theorem step_trying_of_notMem (h : candidate base n ∉ taken) (hn : n + 1 < UInt64.size) :
    step base (trying taken n) =
      found (candidate base n) (insert (candidate base n) taken) := by
  cases n with
  | zero =>
    rw [candidate] at h
    rw [trying, step, if_neg h, candidate]
  | succ n =>
    have hcounter : (UInt64.ofNat (n + 2)).toNat = n + 2 := UInt64.toNat_ofNat_of_lt' hn
    rw [candidate] at h
    rw [trying, step, hcounter, if_neg h, candidate]

/-! ## The run -/

/-- **As long as candidates are taken, the search goes on** and does not touch the set. -/
theorem iterate_step (h : ∀ j < n, candidate base j ∈ taken) (hn : n + 1 < UInt64.size) :
    (step base)^[n] (start taken) = trying taken n := by
  induction n with
  | zero => rfl
  | succ n ih =>
    rw [Function.iterate_succ_apply', ih (fun j hj => h j (by omega)) (by omega),
      step_trying_of_mem (h n (by omega)) (by omega)]

end Search

/-! ## The name that is found -/

variable {taken : List String} {base : String}

/-- Candidates differ, so no more of them are taken than names are. -/
theorem le_card_of_taken {k : ℕ} (h : ∀ j < k, candidate base j ∈ taken) :
    k ≤ taken.toFinset.card := by
  have hsub : (Finset.range k).image (candidate base) ⊆ taken.toFinset := by
    intro name hname
    obtain ⟨j, hj, rfl⟩ := Finset.mem_image.1 hname
    exact List.mem_toFinset.2 (h j (Finset.mem_range.1 hj))
  have hcard := Finset.card_le_card hsub
  rwa [Finset.card_image_of_injective _ (candidate_injective base), Finset.card_range] at hcard

/-- A name that is not the base is the base with the least number behind it that is free. -/
theorem IsFirstFree.exists_number {name : String} (h : IsFirstFree taken base name)
    (hbase : base ∈ taken) : ∃ k, 2 ≤ k ∧ name = base ++ toString k ∧
      ∀ j, 2 ≤ j → j < k → base ++ toString j ∈ taken := by
  obtain ⟨n, rfl, hfree, hlast⟩ := h
  cases n with
  | zero => exact absurd hbase hfree
  | succ n =>
    refine ⟨n + 2, by omega, rfl, fun j hj hjn => ?_⟩
    obtain ⟨i, rfl⟩ := Nat.exists_eq_add_of_le' hj
    exact hlast (i + 1) (by omega)

/-- **The search for a free name ends**, after one candidate more than names are taken at the
    latest and before the counter is at its end.  It gives the base if that is free and else
    the base with the least free number from 2 on, and besides that name the same names are
    taken as before. -/
theorem freeName_of_search (taken : List String) (base : String)
    (h : taken.toFinset.card < UInt64.size - 2) :
    (∃ tries ≤ taken.toFinset.card + 1,
      (∀ n < tries, ((Search.step base)^[n] (.start taken.toFinset)).Goes) ∧
      (Search.step base)^[tries] (.start taken.toFinset) =
        .found (freeName taken base) (insert (freeName taken base) taken.toFinset)) ∧
    (base ∉ taken → freeName taken base = base) ∧
    (base ∈ taken → ∃ k, 2 ≤ k ∧ freeName taken base = base ++ toString k ∧
      ∀ j, 2 ≤ j → j < k → base ++ toString j ∈ taken) ∧
    freeName taken base ∉ taken := by
  have hfirst := freeName_isFirstFree taken base
  refine ⟨?ends, freeName_of_notMem, hfirst.exists_number, freeName_notMem taken base⟩
  case ends =>
    obtain ⟨k, hk, hfree, hlast⟩ := hfirst
    have hcard := le_card_of_taken hlast
    have hsize : k + 1 < UInt64.size := by omega
    have hrun : ∀ n ≤ k,
        (Search.step base)^[n] (.start taken.toFinset) = .trying taken.toFinset n :=
      fun n hn => Search.iterate_step
        (fun j hj => List.mem_toFinset.2 (hlast j (by omega))) (by omega)
    rw [hk] at hfree ⊢
    refine ⟨k + 1, by omega, fun n hn => ?_, ?_⟩
    · rw [hrun n (by omega)]
      exact Search.goes_trying _ n
    · rw [Function.iterate_succ_apply', hrun k le_rfl]
      exact Search.step_trying_of_notMem (mt List.mem_toFinset.1 hfree) hsize

/-- With two of its candidates taken, a third one is found. -/
theorem freeName_of_search_users :
    ["listUsers2", "listPets", "listUsers"].toFinset.card < UInt64.size - 2 ∧
      freeName ["listUsers2", "listPets", "listUsers"] "listUsers" = "listUsers3" ∧
      ∃ tries ≤ 4, (Search.step "listUsers")^[tries]
        (.start {"listUsers2", "listPets", "listUsers"}) =
          .found "listUsers3" {"listUsers3", "listUsers2", "listPets", "listUsers"} := by
  have hcard : ["listUsers2", "listPets", "listUsers"].toFinset.card < UInt64.size - 2 := by decide
  have hname : freeName ["listUsers2", "listPets", "listUsers"] "listUsers" = "listUsers3" := by
    decide
  obtain ⟨⟨tries, htries, -, hrun⟩, -⟩ := freeName_of_search _ "listUsers" hcard
  rw [hname] at hrun
  exact ⟨hcard, hname, tries, htries, hrun⟩

end ApiDigest.Naming
