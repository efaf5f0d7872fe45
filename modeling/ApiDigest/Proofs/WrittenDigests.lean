/-
  The text of a digest.

  As JSON a digest has few levels and no key twice in an object, so a text that is made of its
  tokens is read as the same JSON again, if its numbers are.  The numbers of a digest are
  literals of properties, and the integers among them have 63 bits and a sign: in a document
  others have been read as doubles.

  * `Digest.HasLiteral` holds of the literals in a digest, and `Document.integer_of_hasLiteral`
    bounds the integers among them;
  * `Digest.readable_toJson`: the reader puts the JSON of a digest together;
  * `Document.read_digest`: it is read back from what is made of its tokens.
-/
import ApiDigest.Proofs.Literals
import ApiDigest.Proofs.ReadBack

namespace ApiDigest

/-! ## Integers among the literals -/

/-- A literal that a property in a digest is restricted to. -/
def Digest.HasLiteral (digest : Digest) (literal : Literal) : Prop :=
  ∃ record ∈ digest.schemas, ∃ property ∈ record.properties,
    ∃ literals, property.literals = some literals ∧ literal ∈ literals

theorem Literal.integer_of_ofJson? {value : Json} {n : Int}
    (h : ofJson? value = some (.integer n)) : -0x8000000000000000 ≤ n ∧ n < 0x8000000000000000 := by
  cases value with
  | num number =>
    cases number with
    | int m =>
      simp only [ofJson?, Option.some.injEq] at h
      split_ifs at h with hrange
      cases h
      exact hrange
    | double x => cases h
  | null | bool | str | arr | obj => cases h

theorem Literal.exists_of_mem_listOfJson? {value : Json} {literals : List Literal}
    {literal : Literal} (h : listOfJson? value = some literals) (hmem : literal ∈ literals) :
    ∃ item, ofJson? item = some literal := by
  cases value with
  | arr items =>
    rw [listOfJson?] at h
    induction items generalizing literals with
    | nil => cases h; cases hmem
    | cons item items ih =>
      rw [List.mapM_cons] at h
      obtain ⟨first, hfirst, h⟩ := Option.bind_eq_some_iff.1 h
      obtain ⟨rest, hrest, h⟩ := Option.bind_eq_some_iff.1 h
      cases h
      rcases List.mem_cons.1 hmem with rfl | hmem
      · exact ⟨item, hfirst⟩
      · exact ih hmem hrest
  | null | bool | num | str | obj => cases h

/-- The integers among the literals of a node have 63 bits and a sign. -/
theorem Json.ReadAs.integer_mem {value : Json} {node : Schema} {literals : List Literal} {n : Int}
    (h : value.ReadAs node) (hliterals : node.literals = some literals)
    (hn : .integer n ∈ literals) : -0x8000000000000000 ≤ n ∧ n < 0x8000000000000000 := by
  obtain ⟨fields, rfl, -⟩ := h.exists_fields
  obtain ⟨list, -, hlist⟩ := Option.bind_eq_some_iff.1 hliterals
  obtain ⟨item, hitem⟩ := Literal.exists_of_mem_listOfJson? hlist hn
  exact Literal.integer_of_ofJson? hitem

/-- **The integers among the literals of a digest have 63 bits and a sign.** -/
theorem Document.integer_of_hasLiteral {root : List (String × Json)} {n : Int}
    (h : (ofFields root).digest.HasLiteral (.integer n)) :
    -0x8000000000000000 ≤ n ∧ n < 0x8000000000000000 := by
  obtain ⟨record, hrecord, property, hproperty, literals, hliterals, hn⟩ := h
  obtain ⟨node, hnode, heq⟩ := exists_of_forall₂ (ofFields root).forall₂_records hrecord
  obtain ⟨value, -, hread⟩ := spelled_recordedNodes hnode
  replace hread : value.ReadAs node := hread
  replace heq : record = node.record record.name := heq
  rw [heq] at hproperty
  obtain ⟨field, hfield, rfl⟩ := List.mem_map.1 hproperty
  obtain ⟨entry, -, -, hentry⟩ := exists_of_forall₂ hread.properties hfield
  -- the literals of the property stand at the value that it leads to
  exact ((hentry.resolved hread.properties).unwrapped).integer_mem hliterals hn

/-! ## Digests that are put together -/

namespace Json

variable {depth : ℕ}

theorem readable_str (text : String) : Readable depth (.str text) :=
  .leaf rfl rfl (by simp)

theorem readable_bool (b : Bool) : Readable depth (.bool b) :=
  .leaf rfl rfl (by simp)

theorem readable_ofOption {α : Type} {f : α → Json} (value : Option α)
    (h : ∀ a ∈ value, Readable depth (f a)) : Readable depth (.ofOption f value) := by
  cases value with
  | none =>
    show Readable depth .null
    exact .leaf rfl rfl (by simp)
  | some a => exact h a rfl

theorem readable_map {α : Type} {f : α → Json} {items : List α}
    (h : ∀ item ∈ items, Readable depth (f item)) : Readable (depth + 1) (.arr (items.map f)) :=
  .arr (List.forall_mem_map.2 h)

end Json

open Json (Readable readable_str readable_bool readable_ofOption readable_map)

variable {depth : ℕ}

theorem ValueType.readable_toJson (type : ValueType) : Readable depth type.toJson :=
  readable_str type.render

theorem ParamRecord.readable_toJson (record : ParamRecord) :
    Readable (depth + 1) record.toJson := by
  refine .obj (by simp [Fields.keys]) ?_
  simp [readable_str, readable_bool, ValueType.readable_toJson]

theorem ShapeRef.readable_toJson (shape : ShapeRef) : Readable (depth + 1) shape.toJson := by
  refine .obj (by simp [Fields.keys]) ?_
  simp [readable_str, readable_bool, readable_ofOption, ValueType.readable_toJson]

theorem OperationRecord.readable_toJson (record : OperationRecord) :
    Readable (depth + 3) record.toJson := by
  refine .obj (by simp [Fields.keys]) ?_
  simp [readable_str, readable_ofOption, readable_map, Json.ofStrings,
    ParamRecord.readable_toJson, ShapeRef.readable_toJson]

/-- A literal that is no number, or a number that is read from its text. -/
def Literal.ReadsBack (literal : Literal) : Prop := ∀ n, literal.toJson = .num n → n.ReadsBack

theorem Literal.readable_toJson {literal : Literal} (h : literal.ReadsBack) :
    Readable depth literal.toJson := by
  cases literal <;> exact .leaf rfl rfl h

theorem PropertyRecord.readable_toJson {record : PropertyRecord}
    (h : ∀ literals, record.literals = some literals → ∀ literal ∈ literals, literal.ReadsBack) :
    Readable (depth + 2) record.toJson := by
  refine .obj (by simp [Fields.keys]) ?_
  have hliterals : ∀ literals ∈ record.literals,
      Readable (depth + 1) (.arr (literals.map Literal.toJson)) := fun literals hliterals =>
    readable_map fun literal hliteral =>
      Literal.readable_toJson (h literals hliterals literal hliteral)
  simp [readable_str, readable_bool, readable_ofOption, ValueType.readable_toJson,
    readable_ofOption record.literals hliterals]

theorem SchemaRecord.readable_toJson {record : SchemaRecord}
    (h : ∀ property ∈ record.properties, ∀ literals, property.literals = some literals →
      ∀ literal ∈ literals, literal.ReadsBack) : Readable (depth + 4) record.toJson := by
  refine .obj (by simp [Fields.keys]) ?_
  have hproperties : Readable (depth + 3) (.arr (record.properties.map PropertyRecord.toJson)) :=
    readable_map fun property hproperty => PropertyRecord.readable_toJson (h property hproperty)
  simp [readable_str, readable_map, Json.ofStrings, hproperties]

/-- **The JSON of a digest is put together from its tokens**, if its literals are read from
    their texts. -/
theorem Digest.readable_toJson {digest : Digest}
    (h : ∀ literal, digest.HasLiteral literal → literal.ReadsBack) :
    Readable (depth + 6) digest.toJson := by
  refine .obj (by simp [Fields.keys]) ?_
  have hoperations : Readable (depth + 5) (.arr (digest.operations.map OperationRecord.toJson)) :=
    readable_map fun record _ => record.readable_toJson
  have hschemas : Readable (depth + 5) (.arr (digest.schemas.map SchemaRecord.toJson)) :=
    readable_map fun record hrecord => SchemaRecord.readable_toJson
      fun property hproperty literals hliterals literal hliteral =>
        h literal ⟨record, hrecord, property, hproperty, literals, hliterals, hliteral⟩
  simp [hoperations, hschemas]

/-- **A text that is made of the tokens of a digest is read as the JSON of the digest**, if the
    doubles in it are read from their texts. -/
theorem Document.read_digest {value : Json} {document : Document} {text : String}
    (hdocument : ofJson value = .ok document)
    (hdoubles : ∀ x, document.digest.HasLiteral (.double x) → (Json.Number.double x).ReadsBack)
    (htext : Json.Spells text.toList document.digest.toJson.toTokens) :
    Json.read text = some document.digest.toJson := by
  cases value with
  | obj fields =>
    rw [ofJson_obj, Except.ok.injEq] at hdocument
    subst hdocument
    have hliterals : ∀ literal, (ofFields fields).digest.HasLiteral literal →
        literal.ReadsBack := by
      intro literal hliteral n hn
      cases literal with
      | integer m =>
        obtain rfl := Json.num.inj hn
        obtain ⟨hlow, hhigh⟩ := integer_of_hasLiteral hliteral
        exact Json.Number.readsBack_int hlow (by omega)
      | double x =>
        obtain rfl := Json.num.inj hn
        exact hdoubles x hliteral
      | string | bool | null => cases hn
    have hreadable : Readable (121 + 6) (ofFields fields).digest.toJson :=
      Digest.readable_toJson hliterals
    exact Json.read_of_spells hreadable htext
  | null | bool | num | str | arr => cases hdocument

end ApiDigest
