/-
  Merged parameters.

  Of the parameters with the same name and place the last one stays, where it
  stands.

  * `ParamRecord.lasts` are the records that stay;
  * `mergeParameters_eq`: merging keeps exactly these;
  * `Parameter.lasts` are the parameters that stay, said without their records;
  * `params_eq_lasts`: what merging gives at each place, in terms of the parameters.
-/
import ApiDigest.Digest.Extract
import Mathlib.Data.List.Nodup

namespace ApiDigest

namespace ParamRecord

/-- The records that no later one replaces. -/
def lasts : List ParamRecord → List ParamRecord
  | [] => []
  | record :: rest => if rest.any record.sameAs then lasts rest else record :: lasts rest

/-- A run of additions keeps what it does not replace. -/
theorem foldl_put (records merged : List ParamRecord) :
    records.foldl put merged =
      (merged.filter fun earlier => !records.any earlier.sameAs) ++ lasts records := by
  induction records generalizing merged with
  | nil =>
    rw [lasts, List.append_nil]
    exact (List.filter_eq_self.2 fun _ _ => rfl).symm
  | cons record rest ih =>
    have hearlier : (fun earlier : ParamRecord =>
          !rest.any earlier.sameAs && !earlier.sameAs record) =
        fun earlier => !(record :: rest).any earlier.sameAs := by
      funext earlier
      rw [List.any_cons, Bool.not_or, Bool.and_comm]
    rw [List.foldl_cons, ih, put, List.filter_append, List.filter_filter, hearlier,
      List.append_assoc, lasts]
    cases hrest : rest.any record.sameAs <;> simp [hrest]

theorem lasts_sublist : ∀ records : List ParamRecord, (lasts records).Sublist records
  | [] => List.Sublist.slnil
  | record :: rest => by
    rw [lasts]
    split
    · exact (lasts_sublist rest).cons record
    · exact (lasts_sublist rest).cons_cons record

/-- No two records that stay are the same one. -/
theorem pairwise_lasts : ∀ records : List ParamRecord,
    (lasts records).Pairwise fun a b => a.sameAs b = false
  | [] => .nil
  | record :: rest => by
    rw [lasts]
    split
    · exact pairwise_lasts rest
    · rename_i hlast
      rw [Bool.not_eq_true, List.any_eq_false] at hlast
      refine .cons (fun later hlater => ?_) (pairwise_lasts rest)
      exact Bool.eq_false_iff.2 (hlast later ((lasts_sublist rest).subset hlater))

end ParamRecord

/-- **Merging keeps the last parameter of each name and place.** -/
theorem mergeParameters_eq (shared own : List Parameter) :
    mergeParameters shared own =
      ParamRecord.lasts ((shared ++ own).filterMap Parameter.record?) := by
  rw [mergeParameters, ParamRecord.foldl_put]
  rfl

/-- Merged records are those of some of the parameters. -/
theorem exists_parameter {shared own : List Parameter} {record : ParamRecord}
    (h : record ∈ mergeParameters shared own) :
    ∃ parameter ∈ shared ++ own, parameter.record? = some record := by
  rw [mergeParameters_eq] at h
  exact List.mem_filterMap.1 ((ParamRecord.lasts_sublist _).subset h)

/-! ## Parameters that stay -/

namespace Parameter

/-- A digest lists the parameter: it has a name, and stands in the path or the query. -/
def IsListed (parameter : Parameter) : Prop :=
  parameter.name ≠ "" ∧ (parameter.place = "path" ∨ parameter.place = "query")

instance (parameter : Parameter) : Decidable parameter.IsListed :=
  inferInstanceAs (Decidable (_ ∧ _))

/-- Two parameters have the same name and the same place. -/
def SameKey (a b : Parameter) : Prop := a.name = b.name ∧ a.place = b.place

instance (a b : Parameter) : Decidable (a.SameKey b) := inferInstanceAs (Decidable (_ ∧ _))

/-- The listed parameters after which none of the same name and place comes. -/
def lasts : List Parameter → List Parameter
  | [] => []
  | parameter :: later =>
    if parameter.IsListed ∧ ∀ other ∈ later, ¬ other.SameKey parameter then
      parameter :: lasts later
    else lasts later

/-- The record of a parameter that stands at the place. -/
def recordAt (place : ParamPlace) (parameter : Parameter) : ParamRecord where
  name := parameter.name
  type := (parameter.schema.map Schema.valueType).getD (.base .unknown)
  required := parameter.required
  place

variable {parameter other : Parameter} {record : ParamRecord} {place : ParamPlace}

theorem isListed_of_place (hname : parameter.name ≠ "") (hplace : parameter.place = place.name) :
    parameter.IsListed := by
  refine ⟨hname, ?_⟩
  cases place with
  | path => exact Or.inl hplace
  | query => exact Or.inr hplace

theorem record?_of_place (hname : parameter.name ≠ "") (hplace : parameter.place = place.name) :
    parameter.record? = some (parameter.recordAt place) := by
  have hof : ParamPlace.ofName? parameter.place = some place := by
    rw [hplace]
    cases place <;> rfl
  rw [record?, hof]
  exact if_neg hname

theorem record?_eq_none (h : ¬ parameter.IsListed) : parameter.record? = none := by
  rw [record?, ParamPlace.ofName?]
  by_cases hpath : parameter.place = "path"
  · rw [if_pos hpath]
    exact if_pos (not_not.1 fun hname => h ⟨hname, Or.inl hpath⟩)
  · rw [if_neg hpath]
    by_cases hquery : parameter.place = "query"
    · rw [if_pos hquery]
      exact if_pos (not_not.1 fun hname => h ⟨hname, Or.inr hquery⟩)
    · rw [if_neg hquery]

theorem IsListed.exists_place (h : parameter.IsListed) :
    ∃ place : ParamPlace, parameter.place = place.name :=
  h.2.elim (fun hpath => ⟨.path, hpath⟩) fun hquery => ⟨.query, hquery⟩

/-- Records are the same one just if their parameters have the same name and place. -/
theorem any_sameAs_iff (hname : parameter.name ≠ "") (hplace : parameter.place = place.name)
    (later : List Parameter) :
    (later.filterMap record?).any (parameter.recordAt place).sameAs = true ↔
      ∃ other ∈ later, other.SameKey parameter := by
  simp only [List.any_eq_true, List.mem_filterMap, ParamRecord.sameAs, Bool.and_eq_true,
    decide_eq_true_eq]
  constructor
  · rintro ⟨record, ⟨other, hother, hrecord⟩, hsame, hat⟩
    have hlisted : other.IsListed := by
      by_contra h
      rw [record?_eq_none h] at hrecord
      cases hrecord
    obtain ⟨place', hplace'⟩ := hlisted.exists_place
    rw [record?_of_place hlisted.1 hplace'] at hrecord
    obtain rfl := Option.some.inj hrecord
    obtain rfl : place = place' := hat
    exact ⟨other, hother, hsame.symm, hplace'.trans hplace.symm⟩
  · rintro ⟨other, hother, hsame, hat⟩
    exact ⟨other.recordAt place, ⟨other, hother,
      record?_of_place (hsame ▸ hname) (hat.trans hplace)⟩, hsame.symm, rfl⟩

/-- The records that stay are those of the parameters that stay. -/
theorem lasts_filterMap : ∀ parameters : List Parameter,
    ParamRecord.lasts (parameters.filterMap record?) = (lasts parameters).filterMap record?
  | [] => rfl
  | parameter :: later => by
    rw [lasts]
    by_cases hlisted : parameter.IsListed
    · obtain ⟨place, hplace⟩ := hlisted.exists_place
      have hrecord := record?_of_place hlisted.1 hplace
      have hany := any_sameAs_iff hlisted.1 hplace later
      rw [List.filterMap_cons_some hrecord, ParamRecord.lasts, lasts_filterMap later]
      by_cases hlater : ∃ other ∈ later, other.SameKey parameter
      · have hreplaced : ¬(parameter.IsListed ∧ ∀ other ∈ later, ¬ other.SameKey parameter) :=
          fun h => hlater.elim fun other hother => h.2 other hother.1 hother.2
        rw [if_pos (hany.2 hlater), if_neg hreplaced]
      · have hlast : ∀ other ∈ later, ¬ other.SameKey parameter :=
          fun other hmem hsame => hlater ⟨other, hmem, hsame⟩
        rw [if_neg (mt hany.1 hlater), if_pos ⟨hlisted, hlast⟩, List.filterMap_cons_some hrecord]
    · rw [List.filterMap_cons_none (record?_eq_none hlisted), lasts_filterMap later,
        if_neg fun h => hlisted h.1]

theorem isListed_of_mem_lasts : ∀ {parameters : List Parameter}, parameter ∈ lasts parameters →
    parameter.IsListed
  | first :: later, h => by
    rw [lasts] at h
    split_ifs at h with hfirst
    · rcases List.mem_cons.1 h with rfl | h
      · exact hfirst.1
      · exact isListed_of_mem_lasts h
    · exact isListed_of_mem_lasts h

theorem lasts_subset (parameters : List Parameter) : lasts parameters ⊆ parameters := by
  induction parameters with
  | nil => exact List.Subset.refl _
  | cons first later ih =>
    rw [lasts]
    split_ifs
    · exact List.cons_subset_cons first ih
    · exact List.subset_cons_of_subset first ih

/-- What comes before takes no part in what stays of the rest. -/
theorem lasts_suffix : ∀ earlier parameters : List Parameter,
    lasts parameters <:+ lasts (earlier ++ parameters)
  | [], _ => List.suffix_rfl
  | first :: earlier, parameters => by
    rw [List.cons_append, lasts]
    split_ifs
    · exact (lasts_suffix earlier parameters).trans (List.suffix_cons _ _)
    · exact lasts_suffix earlier parameters

/-- A listed parameter stays, or one of its name and place does. -/
theorem exists_mem_lasts : ∀ {parameters : List Parameter} {parameter : Parameter},
    parameter ∈ parameters → parameter.IsListed →
    ∃ winner ∈ lasts parameters, winner.SameKey parameter
  | first :: later, parameter, hmem, hlisted => by
    by_cases hlater : ∃ other ∈ later, other.SameKey parameter
    · -- the later one stays or gives way in turn
      obtain ⟨other, hother, hname, hplace⟩ := hlater
      have hlistedOther : other.IsListed := ⟨hname ▸ hlisted.1, hplace ▸ hlisted.2⟩
      obtain ⟨winner, hwinner, hsame⟩ := exists_mem_lasts hother hlistedOther
      exact ⟨winner, (lasts_suffix [first] later).subset hwinner,
        hsame.1.trans hname, hsame.2.trans hplace⟩
    · have hlast : ∀ other ∈ later, ¬ other.SameKey parameter :=
        fun other hother hsame => hlater ⟨other, hother, hsame⟩
      obtain rfl : parameter = first := (List.mem_cons.1 hmem).resolve_right fun hparameter =>
        hlast parameter hparameter ⟨rfl, rfl⟩
      refine ⟨parameter, ?_, rfl, rfl⟩
      rw [lasts, if_pos ⟨hlisted, hlast⟩]
      exact List.mem_cons_self

/-- The records of listed parameters at one place. -/
theorem at_filterMap_record? (place : ParamPlace) : ∀ {parameters : List Parameter},
    (∀ parameter ∈ parameters, parameter.IsListed) →
    ParamRecord.at place (parameters.filterMap record?) =
      (parameters.filter fun parameter => parameter.place = place.name).map (recordAt place)
  | [], _ => rfl
  | parameter :: rest, h => by
    obtain ⟨hlisted, hrest⟩ := List.forall_mem_cons.1 h
    obtain ⟨place', hplace'⟩ := hlisted.exists_place
    have htail := at_filterMap_record? place hrest
    have hname : place' = place ↔ place'.name = place.name := by
      cases place <;> cases place' <;> decide
    rw [ParamRecord.at] at htail ⊢
    rw [List.filterMap_cons_some (record?_of_place hlisted.1 hplace')]
    by_cases hsame : place' = place
    · subst hsame
      rw [List.filter_cons_of_pos (by simp [recordAt]), List.filter_cons_of_pos (by simp [hplace']),
        List.map_cons, htail]
    · rw [List.filter_cons_of_neg (by simp [recordAt, hsame]),
        List.filter_cons_of_neg (by simp [hplace', ← hname, hsame]), htail]

end Parameter

/-- **Merging keeps the last parameter of each name and place.**  At each place the records
    are those of the parameters that stay, in their order: of the parameters of the path and
    then those of the operation, the ones with a name after which none of the same name and
    place comes.  No two records have the same name and place; and a parameter with a name
    is there, unless one of its name and place stands for it, which is one of the operation
    if the parameter is. -/
theorem params_eq_lasts (shared own : List Parameter) :
    (∀ place, ParamRecord.at place (mergeParameters shared own) =
      ((Parameter.lasts (shared ++ own)).filter fun parameter =>
        parameter.place = place.name).map (Parameter.recordAt place)) ∧
    ((mergeParameters shared own).map fun record => (record.name, record.place)).Nodup ∧
    ∀ place : ParamPlace, ∀ parameter ∈ shared ++ own, parameter.name ≠ "" →
      parameter.place = place.name →
      ∃ winner ∈ shared ++ own, winner.SameKey parameter ∧ (parameter ∈ own → winner ∈ own) ∧
        winner.recordAt place ∈ ParamRecord.at place (mergeParameters shared own) := by
  have hmerged : mergeParameters shared own =
      (Parameter.lasts (shared ++ own)).filterMap Parameter.record? := by
    rw [mergeParameters_eq, Parameter.lasts_filterMap]
  have hplaces : ∀ place, ParamRecord.at place (mergeParameters shared own) =
      ((Parameter.lasts (shared ++ own)).filter fun parameter =>
        parameter.place = place.name).map (Parameter.recordAt place) := by
    intro place
    rw [hmerged]
    exact Parameter.at_filterMap_record? place fun _ => Parameter.isListed_of_mem_lasts
  refine ⟨hplaces, ?_, fun place parameter hmem hname hplace => ?_⟩
  · rw [mergeParameters_eq, List.Nodup, List.pairwise_map]
    refine (ParamRecord.pairwise_lasts _).imp fun hother hsame => ?_
    obtain ⟨hname, hplace⟩ := Prod.mk.inj hsame
    simp [ParamRecord.sameAs, hname, hplace] at hother
  · have hlisted := Parameter.isListed_of_place hname hplace
    -- a parameter of the operation gives way to one of the operation only
    have hwinner : ∃ winner ∈ Parameter.lasts (shared ++ own), winner.SameKey parameter ∧
        (parameter ∈ own → winner ∈ own) := by
      by_cases hown : parameter ∈ own
      · obtain ⟨winner, hwinner, hsame⟩ := Parameter.exists_mem_lasts hown hlisted
        exact ⟨winner, (Parameter.lasts_suffix shared own).subset hwinner, hsame,
          fun _ => Parameter.lasts_subset own hwinner⟩
      · obtain ⟨winner, hwinner, hsame⟩ := Parameter.exists_mem_lasts hmem hlisted
        exact ⟨winner, hwinner, hsame, fun h => absurd h hown⟩
    obtain ⟨winner, hwinner, hsame, hown⟩ := hwinner
    refine ⟨winner, Parameter.lasts_subset _ hwinner, hsame, hown, ?_⟩
    rw [hplaces]
    exact List.mem_map_of_mem (List.mem_filter.2 ⟨hwinner, by simp [hsame.2.trans hplace]⟩)

/-- Parameters of a path: one that comes twice, and one of the same name elsewhere. -/
def pathLimits : List Parameter := [
  ⟨"limit", "query", false, none⟩, ⟨"limit", "path", true, none⟩, ⟨"limit", "query", true, none⟩]

/-- Parameters of an operation, one of which replaces those. -/
def operationLimits : List Parameter := [
  ⟨"", "query", true, none⟩, ⟨"limit", "query", false, none⟩, ⟨"limit", "header", true, none⟩]

theorem params_eq_lasts_limits :
    ParamRecord.at .path (mergeParameters pathLimits operationLimits) =
      [⟨"limit", .base .unknown, true, .path⟩] ∧
    ParamRecord.at .query (mergeParameters pathLimits operationLimits) =
      [⟨"limit", .base .unknown, false, .query⟩] ∧
    ∃ parameter ∈ pathLimits ++ operationLimits, parameter.name ≠ "" ∧
      parameter.place = ParamPlace.query.name ∧
      ∃ winner ∈ pathLimits ++ operationLimits, winner.SameKey parameter ∧
        (parameter ∈ operationLimits → winner ∈ operationLimits) ∧
        winner.recordAt .query ∈
          ParamRecord.at .query (mergeParameters pathLimits operationLimits) := by
  obtain ⟨hplaces, -, hkept⟩ := params_eq_lasts pathLimits operationLimits
  refine ⟨(hplaces .path).trans (by decide), (hplaces .query).trans (by decide), ?_⟩
  have hmem : ⟨"limit", "query", false, none⟩ ∈ pathLimits ++ operationLimits :=
    List.mem_cons_self
  exact ⟨_, hmem, by decide, rfl, hkept .query _ hmem (by decide) rfl⟩

end ApiDigest
