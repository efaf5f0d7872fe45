/-
  What can fail on the way from a value to its digest.

  A value in no known dialect is refused.  Every other value is an object, it is brought
  into the newer dialect, and it is read as a document, whatever stands in it: a part of
  the wrong shape is passed over, and so the readers of a document never fail
  (`Document.read?_eq_ofFields`).

  * `Json.isRecord` says which shapes are read as a record, and `Json.isSome_readings` that
    nothing else matters for a part to be read;
  * `Dialect.ofJson_upgrade` and `Dialect.ofJson_bundle` are the dialects after each stage;
  * `Json.fails_iff_unknown` puts this together.
-/
import ApiDigest.Proofs.Bundled

namespace ApiDigest

/-! ## Readings of parts -/

/-- Whether a value has the shape of a record with so many fields: an object, or an array
    that is not longer. -/
def Json.isRecord (size : ℕ) : Json → Bool
  | .obj _ => true
  | .arr items => items.length ≤ size
  | _ => false

theorem Json.isSome_record? (names : List String) (value : Json) :
    (value.record? names).isSome = value.isRecord names.length := by
  cases value with
  | arr items => by_cases h : items.length ≤ names.length <;> simp [record?, isRecord, h]
  | _ => rfl

theorem Schema.isSome_ofJson? (value : Json) : (ofJson? value).isSome = value.isRecord 10 := by
  cases value with
  | arr items =>
    rw [ofJson?, readJson, Json.isRecord]
    by_cases h : items.length ≤ 10 <;> simp [fieldNames, h]
  | obj fields => rw [ofJson?, readJson]; rfl
  | _ => rfl

/-- **A part is read if it has the shape of a record**, whatever stands in it. -/
theorem Json.isSome_readings (part : Json) :
    (PathItem.ofJson? part).isSome = part.isRecord 6 ∧
      (Operation.ofJson? part).isSome = part.isRecord 5 ∧
      (Parameter.ofJson? part).isSome = part.isRecord 4 ∧
      (Body.ofJson? part).isSome = part.isRecord 2 ∧
      (Response.ofJson? part).isSome = part.isRecord 1 ∧
      (MediaType.ofJson? part).isSome = part.isRecord 1 ∧
      (Schema.ofJson? part).isSome = part.isRecord 10 := by
  refine ⟨?_, ?_, ?_, ?_, ?_, ?_, Schema.isSome_ofJson? part⟩
  all_goals exact Option.isSome_map.trans (isSome_record? _ part)

/-! ## Dialects -/

namespace Dialect

variable {value : Json} {key start : String}

/-- A document of a known dialect is an object. -/
theorem exists_fields (h : ofJson value ≠ .unknown) : ∃ fields, value = .obj fields := by
  cases value with
  | obj fields => exact ⟨fields, rfl⟩
  | _ => exact absurd rfl h

theorem hasVersion_congr {other : Json} (h : value.get? key = other.get? key) :
    hasVersion key start value = hasVersion key start other := by
  rw [hasVersion, hasVersion, Json.text?, Json.text?, h]

/-- Bundling leaves the dialect as it is. -/
theorem ofJson_bundle (value : Json) : ofJson value.bundle = ofJson value := by
  rw [ofJson, ofJson, hasVersion_congr (Bundle.get?_bundle (by decide) value),
    hasVersion_congr (Bundle.get?_bundle (by decide) value)]

/-- What is upgraded is in the newer dialect, whatever it was. -/
theorem ofJson_upgrade (root : List (String × Json)) :
    ofJson (Json.obj root).upgrade = .openapi3 := by
  have hflag : "x-nullable" ∉ Fields.keys (Upgrade.document root) := Upgrade.notMem_keys_document
  have hget := Upgrade.get?_moveObject_of_notMem hflag
  have hswagger : (Json.obj root).upgrade.get? "swagger" = none := by
    refine (hget "swagger").trans ?_
    simp only [Upgrade.document, List.cons_append, Fields.get?_cons, Fields.get?_append,
      Upgrade.get?_select, Upgrade.get?_optional]
    simp
  have hopenapi : (Json.obj root).upgrade.get? "openapi" = some (.str "3.0.0") :=
    (hget "openapi").trans rfl
  simp [ofJson, hasVersion, Json.text?, hswagger, hopenapi, Json.str?, Text.startsWith,
    Text.stripStart?]

end Dialect

/-! ## Failures -/

namespace Json

/-- What is not refused is an object of the newer dialect. -/
theorem exists_normal {value : Json} (h : Dialect.ofJson value ≠ .unknown) (origin : String) :
    ∃ fields, value.normalize origin = .ok (.obj fields) ∧
      Dialect.ofJson (.obj fields) = .openapi3 := by
  obtain ⟨root, rfl⟩ := Dialect.exists_fields h
  cases hdialect : Dialect.ofJson (.obj root) with
  | unknown => exact absurd hdialect h
  | swagger2 =>
    refine ⟨_, by rw [normalize, hdialect]; rfl, ?_⟩
    exact (Dialect.ofJson_bundle _).trans (Dialect.ofJson_upgrade root)
  | openapi3 =>
    refine ⟨_, by rw [normalize, hdialect]; rfl, ?_⟩
    exact (Dialect.ofJson_bundle _).trans hdialect

/-- **Only an unknown dialect makes a value fail on the way to its digest.**  It is refused
    then, with its origin; all else comes to be an object of the newer dialect.  Whatever
    stands in it, an object is read as a document, and what is no object is refused as that
    and never as broken text. -/
theorem fails_iff_unknown (origin : String) (value : Json) :
    (∀ failure, value.normalize origin = .error failure ↔
      Dialect.ofJson value = .unknown ∧ failure = .unrecognized origin) ∧
    (Dialect.ofJson value ≠ .unknown ↔ ∃ fields, value.normalize origin = .ok (.obj fields) ∧
      Dialect.ofJson (.obj fields) = .openapi3) ∧
    ((∃ document, Document.ofJson value = .ok document) ↔ ∃ fields, value = .obj fields) ∧
    (∀ error, Document.ofJson value = .error error ↔
      value.fields? = none ∧ error = .notAMapping value.kind) ∧
    (value.document? origin).isSome = (Dialect.ofJson value).isKnown := by
  have hunknown (h : Dialect.ofJson value = .unknown) :
      value.normalize origin = .error (.unrecognized origin) := by rw [normalize, h]
  refine ⟨fun failure => ?_, ⟨fun h => exists_normal h origin, ?_⟩, ?_, fun error => ?_, ?_⟩
  · by_cases h : Dialect.ofJson value = .unknown
    · rw [hunknown h]
      simp [h, eq_comm]
    · obtain ⟨fields, hnormal, -⟩ := exists_normal h origin
      simp [hnormal, h]
  · rintro ⟨fields, hnormal, -⟩ h
    rw [hunknown h] at hnormal
    cases hnormal
  · cases value with
    | obj fields => exact ⟨fun _ => ⟨fields, rfl⟩, fun _ => ⟨_, Document.ofJson_obj fields⟩⟩
    | _ => simp [Document.ofJson]
  · cases value with
    | obj fields => simp [fields?]
    | _ => simp [Document.ofJson, fields?, eq_comm]
  · by_cases h : Dialect.ofJson value = .unknown
    · rw [document?, hunknown h, h]
      rfl
    · obtain ⟨fields, hnormal, -⟩ := exists_normal h origin
      rw [document?, hnormal, Dialect.isKnown, decide_eq_true h]
      simp only [Document.ofJson_obj]
      rfl

end Json
end ApiDigest
