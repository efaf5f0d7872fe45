/-
  Reading a text that was written.

  Whatever is made of the tokens of a value is read as that value.  The lexer finds the tokens
  again, and the reader puts them together, as long as keys are distinct, not too much is open
  at once, and numbers are read back from their texts.  Integers of 64 bits are; of a double
  that can only be asked, since the reader rounds twice.

  * `Json.Number.ReadsBack` holds of the numbers that are read from their own texts, and
    `Json.Number.readsBack_int` says that integers are;
  * `Lexer.tokensBehind_of_spells`: the tokens of a text are those that it is made of;
  * `Json.Readable` are the values that the reader puts together, and `Json.read_of_spells`
    says that it does.
-/
import ApiDigest.Json.Reader
import ApiDigest.Proofs.SpelledTexts

namespace ApiDigest.Json

/-! ## Numbers -/

/-- The text of a number is read as the number. -/
def Number.ReadsBack (n : Number) : Prop := Number.read n.render.toList = some n

instance (n : Number) : Decidable n.ReadsBack := inferInstanceAs (Decidable (_ = some n))

section Digits

theorem digit?_of_isDigit {c : Char} (h : c.isDigit = true) :
    digit? c = some (c.toNat - '0'.toNat) :=
  if_pos h

theorem spanDigits_of_isDigit {text : List Char} (h : ∀ c ∈ text, c.isDigit = true) :
    spanDigits text = (text.map fun c => c.toNat - '0'.toNat, []) := by
  induction text with
  | nil => rfl
  | cons c rest ih =>
    obtain ⟨hc, hrest⟩ := List.forall_mem_cons.1 h
    rw [spanDigits, digit?_of_isDigit hc]
    simp only [ih hrest, List.map_cons]

theorem isDigit_of_mem_toDigits {n : ℕ} {c : Char} (h : c ∈ Nat.toDigits 10 n) :
    c.isDigit = true :=
  Nat.isDigit_of_mem_toDigits (by omega) (by omega) h

theorem ofDigits_toDigits (n : ℕ) :
    ofDigits ((Nat.toDigits 10 n).map fun c => c.toNat - '0'.toNat) = n := by
  rw [ofDigits, List.foldl_map]
  exact Nat.ofDigitChars_eq_foldl.symm.trans Nat.ofDigitChars_ten_toDigits

/-- Only zero starts with a zero. -/
theorem head?_toDigits {n : ℕ} (hn : n ≠ 0) : (Nat.toDigits 10 n).head? ≠ some '0' := by
  induction n using Nat.strongRecOn with
  | ind n ih =>
    by_cases hsmall : n < 10
    · rw [Nat.toDigits_of_lt_base hsmall]
      intro hzero
      exact hn (Nat.digitChar_eq_zero.1 (Option.some.inj hzero))
    · have hlast := Nat.toDigits_of_base_le (b := 10) (by omega) (Nat.le_of_not_lt hsmall)
      rw [hlast, List.head?_append_of_ne_nil _ Nat.toDigits_ne_nil]
      exact ih (n / 10) (by omega) (by omega)

theorem toNat_sub_ne_zero {c : Char} (h : c.isDigit = true) (hc : c ≠ '0') :
    c.toNat - '0'.toNat ≠ 0 := by
  have hle : '0'.toNat ≤ c.toNat := (Char.isDigit_iff_toNat.1 h).1
  intro hzero
  exact hc (Char.toNat_inj.1 (Nat.le_antisymm (Nat.sub_eq_zero_iff_le.1 hzero) hle))

/-- The text of a natural is read as a number without fraction and exponent. -/
theorem readUnsigned_toDigits (negative : Bool) (n : ℕ) :
    Number.readUnsigned negative (Nat.toDigits 10 n) =
      Number.ofWhole negative ((Nat.toDigits 10 n).map fun c => c.toNat - '0'.toNat) := by
  by_cases hn : n = 0
  · subst hn
    rfl
  obtain ⟨c, rest, htext⟩ := List.exists_cons_of_ne_nil (Nat.toDigits_ne_nil (n := n) (b := 10))
  have hdigits : ∀ c ∈ Nat.toDigits 10 n, c.isDigit = true := fun c => isDigit_of_mem_toDigits
  have hzero := head?_toDigits hn
  rw [htext] at hdigits hzero ⊢
  have hfirst := toNat_sub_ne_zero (hdigits c List.mem_cons_self) fun h => hzero (h ▸ rfl)
  rw [Number.readUnsigned, spanDigits_of_isDigit hdigits, List.map_cons]
  -- a number of several digits must not start with a zero
  generalize c.toNat - '0'.toNat = d, List.map _ rest = ds at hfirst ⊢
  cases d with
  | zero => exact absurd rfl hfirst
  | succ d => cases ds <;> rfl

theorem Number.read_of_head? {text : List Char} (h : text.head? ≠ some '-') :
    Number.read text = Number.readUnsigned false text := by
  unfold Number.read
  split
  · exact absurd rfl h
  · rfl

theorem head?_toDigits_ne_minus (n : ℕ) : (Nat.toDigits 10 n).head? ≠ some '-' := by
  intro h
  have hdigit := isDigit_of_mem_toDigits (List.mem_of_head? h)
  exact absurd hdigit (by decide)

/-- **Integers of 64 bits are read back.** -/
theorem Number.readsBack_int {n : Int} (hlow : -0x8000000000000000 ≤ n)
    (hhigh : n < 0x10000000000000000) : (Number.int n).ReadsBack := by
  cases n with
  | ofNat n =>
    have htext : (Number.int (.ofNat n)).render.toList = Nat.toDigits 10 n := Nat.toList_repr
    have hn : n < UInt64.size := Int.ofNat_lt.1 hhigh
    rw [ReadsBack, htext, read_of_head? (head?_toDigits_ne_minus n), readUnsigned_toDigits,
      ofWhole, ofDigits_toDigits]
    simp [hn]
  | negSucc n =>
    have htext : (Number.int (.negSucc n)).render.toList = '-' :: Nat.toDigits 10 (n + 1) := by
      rw [← Nat.toList_repr]
      exact String.toList_append
    have hn : n + 1 ≤ 0x8000000000000000 := by omega
    rw [ReadsBack, htext, Number.read, readUnsigned_toDigits, ofWhole, ofDigits_toDigits]
    simp [hn, Int.negSucc_eq]

-- `1e+16` is read as the double it is written for, `2.318103348989243e+77` as the one beside it
example : (Number.double ⟨0x4341C37937E08000⟩).ReadsBack := by decide +kernel

example : ¬ (Number.double ⟨0x5000040000000005⟩).ReadsBack := by decide +kernel

end Digits

namespace Lexer

/-! ## Words and strings -/

variable {out : List Token}

theorem run_word {word : List Char} (h : ∀ c ∈ word, isWordChar c = true) (chars : List Char) :
    word.foldlM step ⟨.word chars, out⟩ = some ⟨.word (word.reverse ++ chars), out⟩ := by
  induction word generalizing chars with
  | nil => rfl
  | cons c word ih =>
    obtain ⟨hc, hword⟩ := List.forall_mem_cons.1 h
    have hstep : step ⟨.word chars, out⟩ c = some ⟨.word (c :: chars), out⟩ := if_pos hc
    rw [List.foldlM_cons, hstep]
    simpa using ih hword (c :: chars)

/-- Behind a word the lexer goes on as if the word had been a token already. -/
theorem step_behind_word {chars : List Char} {value : Json} {c : Char}
    (hvalue : wordValue chars.reverse = some value) (hc : isWordChar c = false) :
    step ⟨.word chars, out⟩ c = step ⟨.between, .scalar value :: out⟩ c := by
  simp [step, hc, hvalue]

theorem hexValue?_hexDigit (n : ℕ) : Text.hexValue? (hexDigit n) = some (n % 16) := by
  have hdigits : ∀ k < 16, Text.hexValue? (Nat.digitChar k) = some k := by decide
  exact hdigits _ (Nat.mod_lt n (by omega))

/-- A control character is written with four digits, and joined again. -/
theorem run_control {c : Char} (hc : c < ' ') :
    (∀ parts, ['\\', 'u', '0', '0', hexDigit (c.toNat / 16), hexDigit c.toNat].foldlM step
        ⟨.string parts, out⟩ = some ⟨.string (.unit c.toNat :: parts), out⟩) ∧
      ∀ more, joinParts (.unit c.toNat :: more) = (joinParts more).map (c :: ·) := by
  have hsmall : c.toNat < 32 := hc
  constructor
  · intro parts
    have hzero : Text.hexValue? '0' = some 0 := rfl
    have hvalue : 16 * (c.toNat / 16 % 16) + c.toNat % 16 = c.toNat := by omega
    simp [step, hexValue?_hexDigit, hzero, hvalue]
  · intro more
    have hhigh : isHighHalf c.toNat = false := by simp [isHighHalf]; omega
    have hlow : isLowHalf c.toNat = false := by simp [isLowHalf]; omega
    rw [joinParts.eq_def]
    simp [hhigh, hlow]

/-- A character of a string is written as one part of a string. -/
theorem exists_part (c : Char) : ∃ part,
    (∀ parts, (escape c).foldlM step ⟨.string parts, out⟩ = some ⟨.string (part :: parts), out⟩) ∧
      ∀ more, joinParts (part :: more) = (joinParts more).map (c :: ·) := by
  unfold escape
  split_ifs with hquote hslash hfeed hreturn htab hback hform hcontrol
  · subst hquote; exact ⟨.char _, fun _ => rfl, fun _ => rfl⟩
  · subst hslash; exact ⟨.char _, fun _ => rfl, fun _ => rfl⟩
  · subst hfeed; exact ⟨.char _, fun _ => rfl, fun _ => rfl⟩
  · subst hreturn; exact ⟨.char _, fun _ => rfl, fun _ => rfl⟩
  · subst htab; exact ⟨.char _, fun _ => rfl, fun _ => rfl⟩
  · subst hback; exact ⟨.char _, fun _ => rfl, fun _ => rfl⟩
  · subst hform; exact ⟨.char _, fun _ => rfl, fun _ => rfl⟩
  · exact ⟨.unit c.toNat, run_control hcontrol⟩
  · refine ⟨.char c, fun parts => ?_, fun _ => rfl⟩
    simp [step, hquote, hslash, hcontrol]

theorem exists_parts (out : List Token) (text : List Char) : ∃ parts,
    (∀ before, (text.flatMap escape).foldlM step ⟨.string before, out⟩ =
      some ⟨.string (parts.reverse ++ before), out⟩) ∧ joinParts parts = some text := by
  induction text with
  | nil => exact ⟨[], fun _ => rfl, rfl⟩
  | cons c text ih =>
    obtain ⟨part, hpart, hjoin⟩ := exists_part c
    obtain ⟨parts, hparts, hjoins⟩ := ih
    refine ⟨part :: parts, fun before => ?_, by rw [hjoin, hjoins]; rfl⟩
    rw [List.flatMap_cons, List.foldlM_append, hpart]
    simpa using hparts (part :: before)

/-- **A string in quotes is one token.** -/
theorem run_quote (text : String) :
    (quote text).toList.foldlM step ⟨.between, out⟩ =
      some ⟨.between, .scalar (.str text) :: out⟩ := by
  obtain ⟨parts, hparts, hjoin⟩ := exists_parts out text.toList
  have hopen : step ⟨.between, out⟩ '"' = some ⟨.string [], out⟩ := rfl
  have hclose : step ⟨.string (parts.reverse ++ []), out⟩ '"' =
      some ⟨.between, .scalar (.str text) :: out⟩ := by
    simp [step, hjoin]
  rw [quote, String.toList_ofList, List.cons_append, List.foldlM_cons, hopen]
  simp only [Option.bind_eq_bind, Option.bind_some]
  rw [List.foldlM_append, hparts]
  simpa using hclose

/-! ## The tokens of a text -/

variable {text : List Char} {ts : List Token}

/-- The tokens of a text that comes behind other tokens. -/
def tokensBehind (out : List Token) (text : List Char) : Option (List Token) :=
  (text.foldlM step ⟨.between, out⟩).bind finish

theorem tokensBehind_blank {c : Char} (hblank : isBlank c = true) (out : List Token) :
    tokensBehind out (c :: text) = tokensBehind out text := by
  have hstep : step ⟨.between, out⟩ c = some ⟨.between, out⟩ := if_pos hblank
  simp [tokensBehind, hstep]

theorem tokensBehind_mark {token : Token} {c : Char} (hmark : token.mark? = some c)
    (out : List Token) : tokensBehind out (c :: text) = tokensBehind (token :: out) text := by
  have hstep : step ⟨.between, out⟩ c = some ⟨.between, token :: out⟩ := by
    cases token <;> cases hmark <;> rfl
  simp [tokensBehind, hstep]

theorem tokensBehind_quote (s : String) (out : List Token) :
    tokensBehind out ((quote s).toList ++ text) = tokensBehind (.scalar (.str s) :: out) text := by
  simp [tokensBehind, run_quote]

/-- The text of a word has nothing but characters of words. -/
theorem isWordChar_of_word? {value : Json} {word : String} (hword : value.word? = some word) :
    ∀ c ∈ word.toList, isWordChar c = true := by
  have hname {name : List Char} (h : name.all isWordChar = true) :
      ∀ c ∈ name, isWordChar c = true :=
    List.all_eq_true.1 h
  cases value with
  | null => cases hword; exact hname rfl
  | bool b => cases b <;> cases hword <;> exact hname rfl
  | num n => cases hword; exact n.isWordChar_render
  | str | arr | obj => cases hword

/-- The text of a word is read as the value it is the word for. -/
theorem wordValue_of_word? {value : Json} {word : String} (hword : value.word? = some word)
    (hnumber : ∀ n, value = .num n → n.ReadsBack) : wordValue word.toList = some value := by
  cases value with
  | null => cases hword; rfl
  | bool b => cases b <;> cases hword <;> rfl
  | num n =>
    cases hword
    have hread : Number.read n.render.toList = some n := hnumber n rfl
    have hname {name : List Char} (hname : Number.read name = none) : n.render.toList ≠ name := by
      rintro rfl
      rw [hname] at hread
      cases hread
    rw [wordValue, if_neg (hname rfl), if_neg (hname rfl), if_neg (hname rfl), hread]
    rfl
  | str | arr | obj => cases hword

/-- Behind the word for a value the lexer goes on as if the value had been a token already. -/
theorem tokensBehind_word {word : List Char} {value : Json}
    (hword : ∀ c ∈ word, isWordChar c = true) (hvalue : wordValue word = some value)
    (hend : EndsWord text) (out : List Token) :
    tokensBehind out (word ++ text) = tokensBehind (.scalar value :: out) text := by
  obtain ⟨c, word, rfl⟩ : ∃ c rest, word = c :: rest := by
    refine List.exists_cons_of_ne_nil fun hempty => ?_
    rw [hempty] at hvalue
    cases hvalue
  obtain ⟨hc, hrest⟩ := List.forall_mem_cons.1 hword
  have hfirst : step ⟨.between, out⟩ c = some ⟨.word [c], out⟩ := by
    have hblank : isBlank c = false := by
      by_contra hblank
      rw [isWordChar_of_isBlank (eq_true_of_ne_false hblank)] at hc
      cases hc
    simp [step, enter, hblank, hc]
  have hrun : (c :: word).foldlM step ⟨.between, out⟩ =
      some ⟨.word (c :: word).reverse, out⟩ := by
    rw [List.foldlM_cons, hfirst]
    simpa using run_word hrest [c]
  rw [tokensBehind, tokensBehind, List.foldlM_append, hrun]
  have hchars : wordValue (c :: word).reverse.reverse = some value := by rwa [List.reverse_reverse]
  generalize (c :: word).reverse = chars at hchars
  cases text with
  | nil => simp [finish, hchars]
  | cons d text =>
    have hd := hend d rfl
    simp [step_behind_word hchars hd]

/-- **The lexer finds the tokens that a text is made of.** -/
theorem tokensBehind_of_spells (h : Spells text ts)
    (hnumbers : ∀ n, .scalar (.num n) ∈ ts → n.ReadsBack) (out : List Token) :
    tokensBehind out text = some (out.reverse ++ ts) := by
  induction h generalizing out with
  | nil => simp [tokensBehind, finish]
  | blank hblank _ ih => rw [tokensBehind_blank hblank, ih hnumbers]
  | mark hmark _ ih =>
    rw [tokensBehind_mark hmark, ih fun n hn => hnumbers n (List.mem_cons_of_mem _ hn)]
    simp
  | string _ ih =>
    rw [tokensBehind_quote, ih fun n hn => hnumbers n (List.mem_cons_of_mem _ hn)]
    simp
  | word hword hend _ ih =>
    have hvalue := wordValue_of_word? hword fun n hn => hnumbers n (hn ▸ List.mem_cons_self)
    rw [tokensBehind_word (isWordChar_of_word? hword) hvalue hend,
      ih fun n hn => hnumbers n (List.mem_cons_of_mem _ hn)]
    simp

end Lexer

/-! ## The value of tokens -/

/-- A value that is put together again from its tokens, with at most so many arrays and objects
    inside one another. -/
inductive Readable : ℕ → Json → Prop
  | leaf {depth : ℕ} {value : Json} (hfields : value.fields? = none) (hitems : value.items? = none)
      (hnumber : ∀ n, value = .num n → n.ReadsBack) : Readable depth value
  | arr {depth : ℕ} {items : List Json} (h : ∀ item ∈ items, Readable depth item) :
      Readable (depth + 1) (.arr items)
  | obj {depth : ℕ} {fields : List (String × Json)} (hkeys : (Fields.keys fields).Nodup)
      (h : ∀ field ∈ fields, Readable depth field.2) : Readable (depth + 1) (.obj fields)

/-- A scalar among tokens with commas between them stands in one of the parts. -/
theorem exists_part_of_scalar {value : Json} {parts : List (List Token)}
    (h : .scalar value ∈ ([.comma] : List Token).intercalate parts) :
    ∃ part ∈ parts, .scalar value ∈ part := by
  induction parts with
  | nil => cases h
  | cons part parts ih =>
    cases parts with
    | nil => exact ⟨part, List.mem_cons_self, by simpa using h⟩
    | cons next parts =>
      rw [List.intercalate_cons_cons, List.mem_append, List.mem_append] at h
      rcases h with (hpart | hcomma) | hrest
      · exact ⟨part, List.mem_cons_self, hpart⟩
      · cases List.mem_singleton.1 hcomma
      · obtain ⟨other, hother, hmem⟩ := ih hrest
        exact ⟨other, List.mem_cons_of_mem _ hother, hmem⟩

/-- The numbers in a value that is put together are read from their texts. -/
theorem Readable.readsBack {depth : ℕ} {value : Json} (h : Readable depth value) :
    ∀ n, .scalar (.num n) ∈ value.toTokens → n.ReadsBack := by
  induction h with
  | leaf hfields hitems hnumber =>
    intro n hn
    rw [(spelling_leaf hfields hitems).1, List.mem_singleton, Token.scalar.injEq] at hn
    exact hnumber n hn.symm
  | @arr _ items _ ih =>
    intro n hn
    have hmem : .scalar (.num n) ∈ ([.comma] : List Token).intercalate (itemTokens items) := by
      simpa [toTokens] using hn
    rw [itemTokens_eq_map] at hmem
    obtain ⟨part, hpart, hmem⟩ := exists_part_of_scalar hmem
    obtain ⟨item, hitem, rfl⟩ := List.mem_map.1 hpart
    exact ih item hitem n hmem
  | @obj _ fields _ _ ih =>
    intro n hn
    have hmem : .scalar (.num n) ∈ ([.comma] : List Token).intercalate (fieldTokens fields) := by
      simpa [toTokens] using hn
    rw [fieldTokens_eq_map] at hmem
    obtain ⟨part, hpart, hmem⟩ := exists_part_of_scalar hmem
    obtain ⟨field, hfield, rfl⟩ := List.mem_map.1 hpart
    exact ih field hfield n (by simpa using hmem)

namespace Reader

variable {stack : List Frame} {depth : ℕ}

/-- A value may come next. -/
def TakesValue (expected : Expected) : Prop := expected = .value ∨ expected = .firstItem

/-- The tokens of a value hand it to what is open. -/
def Supplies (stack : List Frame) (value : Json) : Prop :=
  ∀ expected, TakesValue expected →
    value.toTokens.foldlM step ⟨stack, expected⟩ = some (supply value stack)

/-- The items of an array, one after another. -/
theorem run_items {items : List Json} (hitems : items ≠ [])
    (h : ∀ item ∈ items, ∀ before, Supplies (.array before :: stack) item) :
    ∀ before expected, TakesValue expected →
      (([.comma] : List Token).intercalate (items.map toTokens)).foldlM step
        ⟨.array before :: stack, expected⟩ =
          some ⟨.array (items.reverse ++ before) :: stack, .next⟩ := by
  induction items with
  | nil => exact absurd rfl hitems
  | cons item items ih =>
    intro before expected hexpected
    obtain ⟨hitem, hrest⟩ := List.forall_mem_cons.1 h
    have hfirst := hitem before expected hexpected
    cases items with
    | nil => simpa [supply] using hfirst
    | cons next items =>
      have hcomma : step (supply item (.array before :: stack)) .comma =
          some ⟨.array (item :: before) :: stack, .value⟩ := rfl
      have hothers := ih (List.cons_ne_nil _ _) hrest (item :: before) .value (.inl rfl)
      rw [List.map_cons, List.map_cons, List.intercalate_cons_cons, List.foldlM_append,
        List.foldlM_append, hfirst]
      simpa [hcomma] using hothers

/-- A key may come next. -/
def TakesKey (expected : Expected) : Prop := expected = .key ∨ expected = .firstKey

/-- The tokens of a field append it to the fields that are read, if its key is new. -/
theorem run_field {fields : List (String × Json)} {key : String} {value : Json}
    (hkey : key ∉ Fields.keys fields) (hvalue : Supplies (.object fields key :: stack) value)
    (before : String) {expected : Expected} (hexpected : TakesKey expected) :
    (.scalar (.str key) :: .colon :: value.toTokens).foldlM step
      ⟨.object fields before :: stack, expected⟩ =
        some ⟨.object (fields ++ [(key, value)]) key :: stack, .next⟩ := by
  have hstart : step ⟨.object fields before :: stack, expected⟩ (.scalar (.str key)) =
      some ⟨.object fields key :: stack, .colon⟩ := by
    rcases hexpected with rfl | rfl <;> rfl
  have hcolon : step ⟨.object fields key :: stack, .colon⟩ .colon =
      some ⟨.object fields key :: stack, .value⟩ := rfl
  have hread := hvalue .value (.inl rfl)
  rw [supply, Fields.insert_of_notMem value hkey] at hread
  simpa [hstart, hcolon] using hread

/-- The fields of an object, one after another. -/
theorem run_fields {fields : List (String × Json)} (hfields : fields ≠ [])
    (h : ∀ field ∈ fields, ∀ before, Supplies (.object before field.1 :: stack) field.2) :
    ∀ done before expected, (Fields.keys (done ++ fields)).Nodup → TakesKey expected →
      ∃ last, (([.comma] : List Token).intercalate (fields.map fun field =>
        .scalar (.str field.1) :: .colon :: toTokens field.2)).foldlM step
          ⟨.object done before :: stack, expected⟩ =
            some ⟨.object (done ++ fields) last :: stack, .next⟩ := by
  induction fields with
  | nil => exact absurd rfl hfields
  | cons field fields ih =>
    intro done before expected hkeys hexpected
    obtain ⟨key, value⟩ := field
    obtain ⟨hvalue, hrest⟩ := List.forall_mem_cons.1 h
    have hnew : key ∉ Fields.keys done := by
      rw [Fields.keys_append, Fields.keys_cons] at hkeys
      exact fun hmem => List.disjoint_of_nodup_append hkeys hmem List.mem_cons_self
    have hfirst := run_field hnew (hvalue done) before hexpected
    cases fields with
    | nil => exact ⟨key, by simpa using hfirst⟩
    | cons next fields =>
      have hcomma : step ⟨.object (done ++ [(key, value)]) key :: stack, .next⟩ .comma =
          some ⟨.object (done ++ [(key, value)]) key :: stack, .key⟩ := rfl
      have hkeys' : (Fields.keys ((done ++ [(key, value)]) ++ next :: fields)).Nodup := by
        simpa using hkeys
      obtain ⟨last, hothers⟩ :=
        ih (List.cons_ne_nil _ _) hrest (done ++ [(key, value)]) key .key hkeys' (.inl rfl)
      refine ⟨last, ?_⟩
      rw [List.map_cons, List.map_cons, List.intercalate_cons_cons, List.foldlM_append,
        List.foldlM_append, hfirst]
      simpa [hcomma] using hothers

/-- **The tokens of a value hand it over**, wherever there is room for what is in it. -/
theorem supplies_of_readable {value : Json} (h : Readable depth value) :
    ∀ stack : List Frame, stack.length + depth ≤ maxDepth → Supplies stack value := by
  induction h with
  | leaf hfields hitems hnumber =>
    intro stack _ expected hexpected
    rw [(spelling_leaf hfields hitems).1]
    rcases hexpected with rfl | rfl <;> rfl
  | @arr depth items _ ih =>
    intro stack hroom expected hexpected
    have hopen : step ⟨stack, expected⟩ .openArray = some ⟨.array [] :: stack, .firstItem⟩ := by
      have hpush : push (.array []) .firstItem stack = some ⟨.array [] :: stack, .firstItem⟩ :=
        if_pos (by omega)
      rcases hexpected with rfl | rfl <;> exact hpush
    have hitems : ∀ item ∈ items, ∀ before, Supplies (.array before :: stack) item := by
      intro item hitem before
      exact ih item hitem _ (by simp only [List.length_cons]; omega)
    rw [toTokens, itemTokens_eq_map, List.cons_append, List.foldlM_cons, hopen]
    cases items with
    | nil => rfl
    | cons item items =>
      have hrun := run_items (List.cons_ne_nil _ _) hitems [] .firstItem (.inr rfl)
      have hclose : step ⟨.array ((item :: items).reverse ++ []) :: stack, .next⟩ .closeArray =
          some (supply (.arr (item :: items)) stack) := by
        simp [step, continue?, closeArray]
      simp only [Option.bind_eq_bind, Option.bind_some]
      rw [List.foldlM_append, hrun]
      simpa using hclose
  | @obj depth fields hkeys _ ih =>
    intro stack hroom expected hexpected
    have hopen : step ⟨stack, expected⟩ .openObject =
        some ⟨.object [] "" :: stack, .firstKey⟩ := by
      have hpush : push (.object [] "") .firstKey stack =
          some ⟨.object [] "" :: stack, .firstKey⟩ := if_pos (by omega)
      rcases hexpected with rfl | rfl <;> exact hpush
    have hfields : ∀ field ∈ fields, ∀ before,
        Supplies (.object before field.1 :: stack) field.2 := by
      intro field hfield before
      exact ih field hfield _ (by simp only [List.length_cons]; omega)
    rw [toTokens, fieldTokens_eq_map, List.cons_append, List.foldlM_cons, hopen]
    cases fields with
    | nil => rfl
    | cons field fields =>
      obtain ⟨last, hrun⟩ :=
        run_fields (List.cons_ne_nil _ _) hfields [] "" .firstKey hkeys (.inr rfl)
      have hclose : step ⟨.object (field :: fields) last :: stack, .next⟩ .closeObject =
          some (supply (.obj (field :: fields)) stack) := rfl
      simp only [Option.bind_eq_bind, Option.bind_some]
      rw [List.foldlM_append, hrun]
      simpa using hclose

end Reader

/-- **What is made of the tokens of a value is read as the value.** -/
theorem read_of_spells {text : String} {value : Json} (hvalue : Readable maxDepth value)
    (htext : Spells text.toList value.toTokens) : read text = some value := by
  have htokens : tokens text.toList = some value.toTokens :=
    Lexer.tokensBehind_of_spells htext hvalue.readsBack []
  have hrun := Reader.supplies_of_readable hvalue [] (by simp) .value (.inl rfl)
  rw [read, htokens, Option.bind_some, hrun]
  rfl

end ApiDigest.Json
