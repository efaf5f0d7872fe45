/-
  The compact text of a value is one line.

  A line break in a string is written as an escape, and nothing else that is written has one.

  * `Json.Number.isWordChar_render` is about numbers, whose texts are made of a few characters
    only, and `Json.newline_notMem_quote` about strings;
  * `Json.newline_notMem_compact` puts them together.
-/
import ApiDigest.Json.Printer
import ApiDigest.Json.Token
import ApiDigest.Proofs.Parts

namespace ApiDigest

/-! ## Numbers -/

namespace Decimal

/-- What numbers are written with. -/
def IsNumberText (text : List Char) : Prop := ∀ c ∈ text, c.isDigit ∨ c ∈ ['.', 'e', '+', '-']

variable {text other : List Char} {c : Char}

theorem IsNumberText.cons (hc : c.isDigit ∨ c ∈ ['.', 'e', '+', '-']) (h : IsNumberText text) :
    IsNumberText (c :: text) :=
  List.forall_mem_cons.2 ⟨hc, h⟩

theorem IsNumberText.append (h : IsNumberText text) (hother : IsNumberText other) :
    IsNumberText (text ++ other) :=
  List.forall_mem_append.2 ⟨h, hother⟩

theorem IsNumberText.of_subset (h : IsNumberText text) (hsub : other ⊆ text) :
    IsNumberText other :=
  fun c hc => h c (hsub hc)

theorem isNumberText_zeros (n : ℕ) : IsNumberText (List.replicate n '0') :=
  fun _ hc => .inl (List.eq_of_mem_replicate hc ▸ rfl)

theorem isNumberText_digitChars (n : ℕ) : IsNumberText (digitChars n) :=
  fun _ hc => .inl (Nat.isDigit_of_mem_toDigits (by decide) (by decide) hc)

theorem dropTrailingZeros_subset (digits : List Char) : dropTrailingZeros digits ⊆ digits := by
  intro c hc
  exact List.mem_reverse.1 ((List.dropWhile_sublist _).subset (List.mem_reverse.1 hc))

/-- A point behind the first digit, if there are more. -/
theorem isNumberText_mantissa : ∀ {digits : List Char}, IsNumberText digits →
    IsNumberText (match digits with
      | [] => []
      | [c] => [c]
      | c :: rest => c :: '.' :: rest)
  | [], h => h
  | [_], h => h
  | _ :: _ :: _, h =>
    (IsNumberText.cons (by decide) (List.forall_mem_cons.1 h).2).cons (List.forall_mem_cons.1 h).1

/-- **Decimals are written with digits, points, exponents and signs.** -/
theorem isNumberText_render (style : Style) (d : Decimal) :
    IsNumberText (d.render style).toList := by
  have hdigits : IsNumberText (dropTrailingZeros (digitChars d.digits)) :=
    (isNumberText_digitChars d.digits).of_subset (dropTrailingZeros_subset _)
  have hpoint {text : List Char} : IsNumberText text → IsNumberText ('.' :: text) :=
    .cons (by decide)
  have hexponent (sign : List Char) (hsign : IsNumberText ('e' :: sign)) (top : Int) :=
    ((isNumberText_mantissa hdigits).append hsign).append (isNumberText_digitChars top.natAbs)
  unfold render
  dsimp only
  generalize dropTrailingZeros (digitChars d.digits) = digits at hdigits hexponent ⊢
  generalize d.exponent + ↑(digitChars d.digits).length - 1 = top
  have hfront (whole : ℕ) :
      IsNumberText (digits.take whole ++ List.replicate (whole - digits.length) '0') :=
    (hdigits.of_subset (List.take_subset _ _)).append (isNumberText_zeros _)
  split_ifs
  · exact (hpoint (isNumberText_zeros 1)).cons (.inl rfl)
  all_goals rw [String.toList_ofList]
  · exact ((hpoint (isNumberText_zeros _)).cons (.inl rfl)).append hdigits
  · exact (hfront _).append (hpoint (isNumberText_zeros 1))
  · exact (hfront _).append (hpoint (hdigits.of_subset (List.drop_subset _ _)))
  · exact hexponent ['-'] (by simp [IsNumberText]) top
  · exact hexponent ['+'] (by simp [IsNumberText]) top
  · exact hexponent [] (by simp [IsNumberText]) top

end Decimal

namespace Json

theorem isWordChar_of_isNumberText {text : List Char} (h : Decimal.IsNumberText text) :
    ∀ c ∈ text, Lexer.isWordChar c = true := by
  intro c hc
  rcases h c hc with hdigit | hmark
  · simp [Lexer.isWordChar, Char.isAlphanum, hdigit]
  · simp only [List.mem_cons, List.not_mem_nil, or_false] at hmark
    rcases hmark with rfl | rfl | rfl | rfl <;> rfl

/-- **Numbers are written as words.** -/
theorem Number.isWordChar_render (n : Number) :
    ∀ c ∈ n.render.toList, Lexer.isWordChar c = true := by
  cases n with
  | int n =>
    have hdigits (n : ℕ) : Decimal.IsNumberText n.repr.toList := by
      rw [Nat.toList_repr]
      exact Decimal.isNumberText_digitChars n
    apply isWordChar_of_isNumberText
    cases n with
    | ofNat n => exact hdigits n
    | negSucc n =>
      change Decimal.IsNumberText ("-" ++ (n + 1).repr).toList
      rw [String.toList_append]
      exact (hdigits (n + 1)).cons (c := '-') (by simp)
  | double x =>
    have hx := Decimal.isNumberText_render doubleStyle x.shortest
    rw [render, Binary64.render]
    split_ifs
    · rw [String.toList_append]
      exact isWordChar_of_isNumberText (hx.cons (c := '-') (by simp))
    · exact isWordChar_of_isNumberText hx
    · -- what is no finite double is written as a name
      exact List.all_eq_true.1 rfl

theorem Number.newline_notMem_render (n : Number) : '\n' ∉ n.render.toList := by
  intro hmem
  exact absurd (n.isWordChar_render _ hmem) (by decide)

/-! ## Strings -/

theorem hexDigit_ne_newline (n : ℕ) : hexDigit n ≠ '\n' := by
  have hdigits : ∀ k < 16, Nat.digitChar k ≠ '\n' := by decide
  exact hdigits _ (Nat.mod_lt n (by decide))

/-- A line break is written with a letter. -/
theorem newline_notMem_escape (c : Char) : '\n' ∉ escape c := by
  rw [escape]
  split_ifs with hquote hslash hnewline
  case neg => simp [Ne.symm hnewline]
  all_goals simp [(hexDigit_ne_newline _).symm]

theorem newline_notMem_quote (text : String) : '\n' ∉ (quote text).toList := by
  rw [quote, String.toList_ofList]
  simp [newline_notMem_escape]

/-! ## Values -/

theorem newline_notMem_intercalate {texts : List String} (h : ∀ text ∈ texts, '\n' ∉ text.toList) :
    '\n' ∉ (String.intercalate "," texts).toList := by
  induction texts with
  | nil => simp
  | cons text rest ih =>
    obtain ⟨htext, hrest⟩ := List.forall_mem_cons.1 h
    cases rest with
    | nil => simpa using htext
    | cons next rest =>
      rw [String.intercalate_cons_cons, String.toList_append, String.toList_append]
      exact fun hmem => (List.mem_append.1 hmem).elim
        (fun hmem => (List.mem_append.1 hmem).elim htext (by decide)) (ih hrest)

theorem compactItems_eq_map (items : List Json) : compactItems items = items.map compact := by
  induction items with
  | nil => rfl
  | cons item rest ih => rw [compactItems, ih, List.map_cons]

theorem compactFields_eq_map (fields : List (String × Json)) :
    compactFields fields = fields.map fun field => quote field.1 ++ ":" ++ compact field.2 := by
  induction fields with
  | nil => rfl
  | cons field rest ih => rw [compactFields, ih, List.map_cons]

/-- **Compact text is one line.** -/
theorem newline_notMem_compact (value : Json) : '\n' ∉ value.compact.toList := by
  induction value using induct with
  | leaf value hfields hitems =>
    cases value with
    | null => rw [compact]; decide
    | bool b => cases b <;> rw [compact] <;> decide
    | num n => rw [compact]; exact n.newline_notMem_render
    | str text => rw [compact]; exact newline_notMem_quote text
    | arr items => cases hitems
    | obj fields => cases hfields
  | arr items ih =>
    rw [compact, compactItems_eq_map]
    have hitems := newline_notMem_intercalate (List.forall_mem_map.2 ih)
    simpa using hitems
  | obj fields ih =>
    rw [compact, compactFields_eq_map]
    have hfield : ∀ field ∈ fields,
        '\n' ∉ (quote field.1 ++ ":" ++ compact field.2).toList := by
      intro field hfield
      simpa using ⟨newline_notMem_quote field.1, ih field hfield⟩
    have hfields := newline_notMem_intercalate (List.forall_mem_map.2 hfield)
    simpa using hfields

end Json
end ApiDigest
