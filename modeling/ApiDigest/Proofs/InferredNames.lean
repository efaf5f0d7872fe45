/-
  Names that can stand in a program as they are.

  A path may have any characters.  But an inferred identifier is made of fixed words and of
  what is left of segments without the characters that identifiers cannot have, and the
  numbers that make a name free add digits only.

  * `Naming.Spells first text`: the text is an identifier, and its first character is of a
    class; `Spells.capitalize` and `Spells.candidate` say what names are made of it;
  * `OperationId.spells_infer`: so are the identifiers that are inferred;
  * `Document.inferred_names`: the names in a digest that are inferred.
-/
import ApiDigest.Document.Reading
import ApiDigest.Proofs.Capture
import ApiDigest.Proofs.Origins

namespace ApiDigest

/-! ## Upper case of letters -/

namespace Text

/-- The runs of characters with an upper case begin with the letters `a` to `z`. -/
theorem upperCode_of_lt {code : Nat} (h : code < 0xb5) :
    upperCode code = [if 0x61 ≤ code ∧ code ≤ 0x7a then code - 0x20 else code] := by
  have hexpansions : ∀ entry ∈ caseExpansions, 0xb5 ≤ entry.1 := by decide +kernel
  have hruns : ∀ run ∈ caseRuns.tail, 0xb5 ≤ run.first := by decide +kernel
  have hexpansion : caseExpansions.find? (fun entry => entry.1 = code) = none :=
    List.find?_eq_none.2 fun entry hentry heq => by
      have := hexpansions entry hentry
      simp only [decide_eq_true_eq] at heq
      omega
  have hrun : caseRuns.tail.find? (fun run => run.holds code) = none :=
    List.find?_eq_none.2 fun run hrun hholds => by
      have := hruns run hrun
      simp only [CaseRun.holds, Bool.and_eq_true, decide_eq_true_eq] at hholds
      omega
  have hcons : caseRuns = ⟨0x61, 0x7a, 1, 0x41⟩ :: caseRuns.tail := rfl
  rw [upperCode, hexpansion, hcons, List.find?_cons, hrun]
  by_cases hletter : 0x61 ≤ code ∧ code ≤ 0x7a
  · have hholds : (CaseRun.mk 0x61 0x7a 1 0x41).holds code = true := by
      simp [CaseRun.holds, hletter, Nat.mod_one]
    simp only [hholds, if_pos hletter]
    congr 1
    omega
  · have hholds : (CaseRun.mk 0x61 0x7a 1 0x41).holds code = false := by
      simp only [CaseRun.holds, Nat.mod_one, decide_true, Bool.and_true]
      simpa using hletter
    simp only [hholds, if_neg hletter]

theorem upperCase_of_lt {c : Char} (h : c.toNat < 0xb5) :
    upperCase c = [if 0x61 ≤ c.toNat ∧ c.toNat ≤ 0x7a then Char.ofNat (c.toNat - 0x20) else c] := by
  rw [upperCase, upperCode_of_lt h, List.map_singleton, apply_ite Char.ofNat, Char.ofNat_toNat]

end Text

namespace Naming

/-! ## Identifiers -/

/-- A letter, a digit or an underscore. -/
def IsNameChar (c : Char) : Prop := c.isAlphanum = true ∨ c = '_'

instance (c : Char) : Decidable (IsNameChar c) :=
  inferInstanceAs (Decidable (c.isAlphanum = true ∨ c = '_'))

/-- The text is made of letters, digits and underscores, and its first character is of the
    given class. -/
structure Spells (first : Char → Bool) (text : String) : Prop where
  head : text.toList.head?.any first = true
  chars : ∀ c ∈ text.toList, IsNameChar c

instance (first : Char → Bool) (text : String) : Decidable (Spells first text) :=
  decidable_of_iff (text.toList.head?.any first = true ∧
      (text.toList.all fun c => decide (IsNameChar c)) = true)
    ⟨fun h => ⟨h.1, fun c hc => of_decide_eq_true (List.all_eq_true.1 h.2 c hc)⟩,
      fun h => ⟨h.head, List.all_eq_true.2 fun c hc => decide_eq_true (h.chars c hc)⟩⟩

variable {first : Char → Bool} {text base ending : String} {chars : List Char} {c : Char}

theorem IsNameChar.toNat_lt (h : IsNameChar c) : c.toNat < 0x7b := by
  rcases h with h | rfl
  · have hlast : c.val ≤ 'Z'.val ∨ c.val ≤ 'z'.val ∨ c.val ≤ '9'.val := by
      rcases Bool.or_eq_true_iff.1 h with hletter | hdigit
      · rcases Bool.or_eq_true_iff.1 hletter with hupper | hlower
        · exact Or.inl (of_decide_eq_true hupper).2
        · exact Or.inr (Or.inl (of_decide_eq_true (Bool.and_eq_true_iff.1 hlower).2))
      · exact Or.inr (Or.inr (of_decide_eq_true (Bool.and_eq_true_iff.1 hdigit).2))
    rcases hlast with hle | hle | hle
    all_goals exact Nat.lt_of_le_of_lt (UInt32.le_iff_toNat_le.1 hle) (by decide)
  · decide

theorem isNameChar_upperCase (h : IsNameChar c) : ∀ d ∈ Text.upperCase c, IsNameChar d := by
  have hletters : ∀ n < 0x7b, 0x61 ≤ n → IsNameChar (Char.ofNat (n - 0x20)) := by decide
  have hlt := h.toNat_lt
  intro d hd
  rw [Text.upperCase_of_lt (by omega), List.mem_singleton] at hd
  split_ifs at hd with hletter
  · exact hd ▸ hletters _ hlt hletter.1
  · exact hd ▸ h

theorem isUpper_upperCase (h : c.isLower = true) :
    (Text.upperCase c).head?.any Char.isUpper = true := by
  have hletters : ∀ n < 0x7b, 0x61 ≤ n → (Char.ofNat (n - 0x20)).isUpper = true := by decide
  have hletter : 0x61 ≤ c.toNat ∧ c.toNat ≤ 0x7a := by
    obtain ⟨ha, hz⟩ := Bool.and_eq_true_iff.1 h
    exact ⟨UInt32.le_iff_toNat_le.1 (of_decide_eq_true ha),
      UInt32.le_iff_toNat_le.1 (of_decide_eq_true hz)⟩
  rw [Text.upperCase_of_lt (by omega), if_pos hletter]
  exact hletters _ (by omega) hletter.1

theorem isNameChar_capitalizeChars (h : ∀ c ∈ chars, IsNameChar c) :
    ∀ d ∈ capitalizeChars chars, IsNameChar d := by
  cases chars with
  | nil => exact h
  | cons c rest =>
    obtain ⟨hc, hrest⟩ := List.forall_mem_cons.1 h
    rw [capitalizeChars]
    intro d hd
    exact (List.mem_append.1 hd).elim (isNameChar_upperCase hc d) (hrest d)

/-- **Whatever a segment is made of**, its words have characters of identifiers only. -/
theorem isNameChar_pascalChars (segment : List Char) : ∀ c ∈ pascalChars segment, IsNameChar c := by
  intro c hc
  obtain ⟨word, -, hc⟩ := List.mem_flatMap.1 hc
  refine isNameChar_capitalizeChars (fun d hd => ?_) c hc
  simpa [isIdentifierChar, IsNameChar] using (List.mem_filter.1 hd).2

namespace Spells

theorem append (h : Spells first text) (hending : ∀ c ∈ ending.toList, IsNameChar c) :
    Spells first (text ++ ending) := by
  refine ⟨?_, fun c hc => ?_⟩
  · have hhead := h.head
    rw [String.toList_append, List.head?_append]
    cases hc : text.toList.head? with
    | none => rw [hc] at hhead; cases hhead
    | some c => rwa [hc] at hhead
  · rw [String.toList_append, List.mem_append] at hc
    exact hc.elim (h.chars c) (hending c)

theorem capitalize (h : Spells Char.isLower text) :
    Spells Char.isUpper (Naming.capitalize text) := by
  obtain ⟨hhead, hchars⟩ := h
  rw [Naming.capitalize]
  refine ⟨?_, ?_⟩
  · rw [String.toList_ofList]
    cases htext : text.toList with
    | nil => rw [htext] at hhead; cases hhead
    | cons c rest =>
      rw [htext, List.head?_cons, Option.any_some] at hhead
      have hupper := isUpper_upperCase hhead
      rw [capitalizeChars, List.head?_append]
      cases hc : (Text.upperCase c).head? with
      | none => rw [hc] at hupper; cases hupper
      | some d => rwa [hc] at hupper
  · rw [String.toList_ofList]
    exact isNameChar_capitalizeChars hchars

/-- Numbers add digits only. -/
theorem candidate (h : Spells first base) : ∀ k, Spells first (Naming.candidate base k)
  | 0 => h
  | k + 1 => h.append fun c hc => by
    rw [show toString (k + 2) = String.ofList (Nat.toDigits 10 (k + 2)) from rfl,
      String.toList_ofList] at hc
    exact Or.inl (by simp [Char.isAlphanum, Nat.isDigit_of_mem_toDigits (by decide) (by decide) hc])

end Spells
end Naming

/-! ## Inferred identifiers -/

namespace OperationId

open Naming (Spells IsNameChar)

variable {m : Method}

theorem spells_verb (m : Method) : Spells Char.isLower m.verb := by cases m <;> decide

theorem spells_root (m : Method) : Spells Char.isLower (m.key ++ "Root") := by cases m <;> decide

theorem spells_action {segment : List Char} {action : String} (h : action? segment = some action) :
    Spells Char.isLower action := by
  have hall : ∀ entry ∈ actions, Spells Char.isLower entry.2 := by decide
  obtain ⟨entry, hentry, rfl⟩ := Option.map_eq_some_iff.1 h
  exact hall entry (List.mem_of_find?_eq_some hentry)

/-- A word keeps being an identifier when a resource and versions are added. -/
theorem spells_append {word : String} (h : Spells Char.isLower word) (resource : List Char)
    (versions : List (List Char)) : Spells Char.isLower
      (word ++ String.ofList (Naming.pascalChars resource) ++ suffix versions) := by
  refine (h.append fun c hc => ?_).append fun c hc => ?_
  · rw [String.toList_ofList] at hc
    exact Naming.isNameChar_pascalChars resource c hc
  · rw [suffix, String.toList_ofList] at hc
    obtain ⟨version, -, hc⟩ := List.mem_flatMap.1 hc
    exact Naming.isNameChar_pascalChars version c hc

/-- **An inferred identifier**, whatever the path, is an identifier that begins with a small
    letter. -/
theorem spells_infer (m : Method) (path : String) : Spells Char.isLower (infer m path) := by
  rw [infer]
  generalize (segments path.toList).reverse = reversed
  rw [ofReversed]
  dsimp only
  split
  · exact spells_root m
  · split
    · rename_i haction _
      exact spells_append (spells_action haction) _ _
    · exact spells_append (spells_verb m) _ _

end OperationId

/-! ## Names in a digest -/

open Naming (Spells)

namespace Visit

variable {taken : List String} {visit : Visit} {id : String}

/-- An identifier that is not declared is inferred. -/
theorem spells_givenId (taken : List String) (h : visit.operation.explicitId? = none) :
    Spells Char.isLower (visit.givenId taken) := by
  rw [givenId_of_inferred h]
  obtain ⟨k, hk, -⟩ := Naming.freeName_isFirstFree taken (OperationId.infer visit.method visit.path)
  exact hk ▸ (OperationId.spells_infer visit.method visit.path).candidate k

theorem forall₂_ids : ∀ (taken : List String) (visits : List Visit),
    List.Forall₂ (fun visit id => visit.operation.explicitId? = none → Spells Char.isLower id)
      visits (ids taken visits)
  | _, [] => .nil
  | taken, visit :: rest => by
    rw [ids_cons]
    exact .cons (fun h => spells_givenId taken h) (forall₂_ids _ rest)

/-- **The records that a visit makes** have names that begin with a capital letter, if its
    identifier begins with a small one. -/
theorem spells_made (hid : Spells Char.isLower id) {record : SchemaRecord}
    (h : record ∈ visit.made taken id) : Spells Char.isUpper record.name := by
  obtain ⟨-, -, -, ending, hending, k, hname⟩ := exists_body h
  have hall : ∀ ending ∈ ["Body", "Response"], Spells Char.isUpper ending := by decide
  rw [hname]
  exact (hid.capitalize.append (hall ending hending).chars).candidate k

/-- Every operation record of a run is that of its visit, and the records that the visit
    makes are among those of the run. -/
theorem forall₂_digested : ∀ (taken : List String) (visits : List (Visit × String)),
    List.Forall₂ (fun op visit => ∃ names, op = visit.1.digested names visit.2 ∧
        visit.1.made names visit.2 ⊆ (digest taken visits).schemas)
      (digest taken visits).operations visits
  | _, [] => .nil
  | taken, (visit, id) :: rest => by
    rw [operations_cons, schemas_cons]
    refine .cons ⟨taken, rfl, List.subset_append_left _ _⟩ ?_
    refine (forall₂_digested (visit.takeNames taken id) rest).imp ?_
    rintro op other ⟨names, hop, hmade⟩
    exact ⟨names, hop, List.Subset.trans hmade (List.subset_append_right _ _)⟩

end Visit

/-- The identifier of an operation record begins with a small letter.  Each body of its visit
    that is described in place has a schema record, whose name begins with a capital one. -/
structure OperationRecord.NamesSpell (op : OperationRecord) (visit : Visit)
    (schemas : List SchemaRecord) : Prop where
  id : Spells Char.isLower op.id
  recorded : ∀ body ∈ visit.inlineBodies op, ∃ record ∈ schemas, body.HasRecord record
  schemas : ∀ body ∈ visit.inlineBodies op, ∀ record, body.HasRecord record →
    Spells Char.isUpper record.name

theorem Visit.namesSpell_digested {taken : List String} {visit : Visit} {id : String}
    {schemas : List SchemaRecord} (hid : Spells Char.isLower id)
    (hmade : visit.made taken id ⊆ schemas) :
    (visit.digested taken id).NamesSpell visit schemas := by
  have hbody : ∀ body ∈ visit.inlineBodies (visit.digested taken id),
      ∃ record ∈ visit.made taken id, body.HasRecord record :=
    fun body hbody => exists_of_forall₂ (visit.forall₂_made taken id) hbody
  refine ⟨hid, fun body hmem => ?_, fun body hmem record hrecord => ?_⟩
  · obtain ⟨record, hrecord, hhas⟩ := hbody body hmem
    exact ⟨record, hmade hrecord, hhas⟩
  · -- a body has only one name
    obtain ⟨other, hother, hhas⟩ := hbody body hmem
    have hname := hrecord.1.symm.trans hhas.1
    rw [Option.some.injEq, ShapeRef.named.injEq] at hname
    exact hname ▸ spells_made hid hother

/-- **Names that are inferred are identifiers.**  The identifier of an operation without a
    declared one begins with a small letter, and the names of the schema records that are
    made for the operation begin with a capital one; the other characters are letters,
    digits and underscores. -/
theorem Document.inferred_names (document : Document) :
    List.Forall₂ (fun op visit => op.place = visit.place ∧
        (visit.operation.explicitId? = none → op.NamesSpell visit document.digest.schemas))
      document.digest.operations document.visits := by
  obtain ⟨hlength, hdigested⟩ := List.forall₂_iff_zip.1
    (Visit.forall₂_digested document.schemas.keys document.identified)
  rw [← map_fst_identified, List.forall₂_map_right_iff]
  refine List.forall₂_iff_zip.2 ⟨hlength, fun {op pair} hmem => ?_⟩
  obtain ⟨names, rfl, hmade⟩ := hdigested hmem
  refine ⟨rfl, fun hinferred => Visit.namesSpell_digested ?_ ?_⟩
  · have hids := Visit.forall₂_ids document.explicitIds document.visits
    exact List.forall₂_zip hids (List.of_mem_zip hmem).2 hinferred
  · exact List.Subset.trans hmade (List.subset_append_right _ _)

namespace Document

/-- The content of a body that is described in place. -/
def measured : Json := .obj [("content", .obj [("application/json", .obj [("schema", .obj [
  ("properties", .obj [("mètre", .obj [])])])])])]

/-- Operations without declared identifiers.  Of the last path nothing is left but its
    method. -/
def units : Document := ofFields [("paths", .obj [
  ("/größe/ünits-of.mé/{id}/v2", .obj [("post", .obj [("requestBody", measured)])]),
  ("/nits-of.m/v2", .obj [("post", .obj [("responses", .obj [("200", measured)])])]),
  ("/ß", .obj [("get", .obj [])])])]

theorem inferred_names_units :
    (units.visits.map fun visit => visit.operation.explicitId?) = [none, none, none] ∧
      units.digest.operations.map OperationRecord.id =
        ["postNitsOfMV2", "postNitsOfMV22", "list"] ∧
      units.digest.schemas.map SchemaRecord.name =
        ["PostNitsOfMV2Body", "PostNitsOfMV22Response"] ∧
      ∀ op ∈ units.digest.operations, ∃ visit ∈ units.visits, op.place = visit.place ∧
        op.NamesSpell visit units.digest.schemas := by
  have hinferred : ∀ visit ∈ units.visits, visit.operation.explicitId? = none := by decide +kernel
  refine ⟨by decide +kernel, by decide +kernel, by decide +kernel, fun op hop => ?_⟩
  obtain ⟨visit, hvisit, hplace, hnames⟩ := exists_of_forall₂ units.inferred_names hop
  exact ⟨visit, hvisit, hplace, hnames (hinferred visit hvisit)⟩

end Document
end ApiDigest
