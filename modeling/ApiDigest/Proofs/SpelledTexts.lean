/-
  What the text of a value is made of.

  A value has tokens.  Both ways to write it, on one line and indented, put the texts of these
  tokens one after another, with nothing but blanks between them.

  * `Json.toTokens` are the tokens of a value;
  * `Json.Spells` relates a text to the tokens that it is made of, and `Json.Spelling` a part of
    a text to the tokens that it stands for;
  * `Json.spelling_compact` and `Json.spelling_prettyAt`: both texts of a value spell its tokens.
-/
import ApiDigest.Json.Token
import ApiDigest.Proofs.OneLine

namespace ApiDigest.Json

/-! ## Tokens of values -/

mutual

/-- The tokens of a value. -/
def toTokens : Json → List Token
  | .arr items => .openArray :: ([.comma] : List Token).intercalate (itemTokens items) ++
      [.closeArray]
  | .obj fields => .openObject :: ([.comma] : List Token).intercalate (fieldTokens fields) ++
      [.closeObject]
  | value => [.scalar value]

/-- The tokens of the items of an array. -/
def itemTokens : List Json → List (List Token)
  | [] => []
  | v :: rest => toTokens v :: itemTokens rest

/-- The tokens of the fields of an object. -/
def fieldTokens : List (String × Json) → List (List Token)
  | [] => []
  | (k, v) :: rest => (.scalar (.str k) :: .colon :: toTokens v) :: fieldTokens rest

end

theorem itemTokens_eq_map (items : List Json) : itemTokens items = items.map toTokens := by
  induction items with
  | nil => rfl
  | cons item rest ih => rw [itemTokens, ih, List.map_cons]

theorem fieldTokens_eq_map (fields : List (String × Json)) : fieldTokens fields =
    fields.map fun field => .scalar (.str field.1) :: .colon :: toTokens field.2 := by
  induction fields with
  | nil => rfl
  | cons field rest ih => rw [fieldTokens, ih, List.map_cons]

/-! ## Texts of tokens -/

/-- The character of a token that is a bracket or another mark. -/
def Token.mark? : Token → Option Char
  | .openArray => some '['
  | .closeArray => some ']'
  | .openObject => some '{'
  | .closeObject => some '}'
  | .colon => some ':'
  | .comma => some ','
  | .scalar _ => none

/-- The word for a value that is neither a string nor made of other values. -/
def word? : Json → Option String
  | .null => some "null"
  | .bool true => some "true"
  | .bool false => some "false"
  | .num n => some n.render
  | _ => none

/-- No word goes on in a text: it starts with a blank, a quote or a mark, if with anything. -/
def EndsWord (text : List Char) : Prop := ∀ c ∈ text.head?, Lexer.isWordChar c = false

/-- A text that is made of tokens, with blanks before, between and behind them. -/
inductive Spells : List Char → List Token → Prop
  | nil : Spells [] []
  | blank {c : Char} {text : List Char} {tokens : List Token} (hblank : Lexer.isBlank c = true)
      (h : Spells text tokens) : Spells (c :: text) tokens
  | mark {c : Char} {token : Token} {text : List Char} {tokens : List Token}
      (hmark : token.mark? = some c) (h : Spells text tokens) : Spells (c :: text) (token :: tokens)
  | string {s : String} {text : List Char} {tokens : List Token} (h : Spells text tokens) :
      Spells ((quote s).toList ++ text) (.scalar (.str s) :: tokens)
  | word {value : Json} {word : String} {text : List Char} {tokens : List Token}
      (hword : value.word? = some word) (hend : EndsWord text) (h : Spells text tokens) :
      Spells (word.toList ++ text) (.scalar value :: tokens)

/-- A part of a text that stands for some tokens, whatever comes behind it if only no word
    goes on there. -/
def Spelling (part : List Char) (tokens : List Token) : Prop :=
  ∀ rest more, EndsWord rest → Spells rest more → Spells (part ++ rest) (tokens ++ more)

theorem isWordChar_of_isBlank {c : Char} (h : Lexer.isBlank c = true) :
    Lexer.isWordChar c = false := by
  simp only [Lexer.isBlank, Bool.or_eq_true, decide_eq_true_eq] at h
  rcases h with ((rfl | rfl) | rfl) | rfl <;> rfl

theorem Token.isWordChar_of_mark? {token : Token} {c : Char} (h : token.mark? = some c) :
    Lexer.isWordChar c = false := by
  cases token <;> cases h <;> rfl

theorem endsWord_cons {c : Char} (h : Lexer.isWordChar c = false) (text : List Char) :
    EndsWord (c :: text) := by
  intro d hd
  obtain rfl := Option.some.inj hd
  exact h

/-- A text of blanks. -/
def AreBlanks (text : List Char) : Prop := ∀ c ∈ text, Lexer.isBlank c = true

theorem Spells.after_blanks {blank text : List Char} {tokens : List Token}
    (hblank : AreBlanks blank) (h : Spells text tokens) : Spells (blank ++ text) tokens := by
  induction blank with
  | nil => exact h
  | cons c blank ih =>
    obtain ⟨hc, hrest⟩ := List.forall_mem_cons.1 hblank
    exact .blank hc (ih hrest)

theorem endsWord_blanks {blank rest : List Char} (hblank : AreBlanks blank)
    (hrest : EndsWord rest) : EndsWord (blank ++ rest) := by
  cases blank with
  | nil => exact hrest
  | cons c blank => exact endsWord_cons (isWordChar_of_isBlank (hblank c List.mem_cons_self)) _

namespace Spelling

variable {part other blank : List Char} {tokens others : List Token} {token : Token} {c : Char}

theorem nil : Spelling [] [] := fun _ _ _ hmore => hmore

theorem string (text : String) : Spelling (quote text).toList [.scalar (.str text)] :=
  fun _ _ _ hmore => .string hmore

theorem word {value : Json} {word : String} (hword : value.word? = some word) :
    Spelling word.toList [.scalar value] :=
  fun _ _ hrest hmore => .word hword hrest hmore

theorem after_blanks (hblank : AreBlanks blank) (h : Spelling part tokens) :
    Spelling (blank ++ part) tokens := by
  intro rest more hrest hmore
  rw [List.append_assoc]
  exact (h rest more hrest hmore).after_blanks hblank

theorem after_mark (hmark : token.mark? = some c) (h : Spelling part tokens) :
    Spelling (c :: part) (token :: tokens) :=
  fun rest more hrest hmore => .mark hmark (h rest more hrest hmore)

/-- A part behind another one, where no word goes on. -/
theorem append (h : Spelling part tokens) (hends : ∀ rest, EndsWord (other ++ rest))
    (hother : Spelling other others) : Spelling (part ++ other) (tokens ++ others) := by
  intro rest more hrest hmore
  rw [List.append_assoc, List.append_assoc]
  exact h _ _ (hends rest) (hother rest more hrest hmore)

/-- A part between two marks, with blanks before the second one. -/
theorem between (first last : Token) {a b : Char} (hfirst : first.mark? = some a)
    (hlast : last.mark? = some b) (hblank : AreBlanks blank) (h : Spelling part tokens) :
    Spelling (a :: part ++ blank ++ [b]) (first :: tokens ++ [last]) := by
  intro rest more hrest hmore
  have hends : EndsWord (b :: rest) := endsWord_cons (last.isWordChar_of_mark? hlast) rest
  have hclosed : Spells (blank ++ b :: rest) (last :: more) :=
    (Spells.mark hlast hmore).after_blanks hblank
  have hopened := Spells.mark hfirst (h _ _ (endsWord_blanks hblank hends) hclosed)
  simpa using hopened

/-- Parts with commas between them, and blanks behind the commas. -/
theorem intercalate {parts : List (List Char)} {tokens : List (List Token)}
    (hblank : AreBlanks blank) (h : List.Forall₂ Spelling parts tokens) :
    Spelling ((',' :: blank).intercalate parts) (([.comma] : List Token).intercalate tokens) := by
  induction h with
  | nil => exact nil
  | @cons part first parts tokens hpart hparts ih =>
    cases hparts with
    | nil => simpa using hpart
    | cons hnext hparts =>
      rw [List.intercalate_cons_cons, List.intercalate_cons_cons, List.append_assoc,
        List.append_assoc]
      exact hpart.append (fun rest => endsWord_cons rfl _) (after_mark rfl (ih.after_blanks hblank))

end Spelling

/-! ## Both ways of writing -/

/-- A value without parts is written as a word or as a string. -/
theorem spelling_leaf {value : Json} (hfields : value.fields? = none)
    (hitems : value.items? = none) :
    value.toTokens = [.scalar value] ∧ Spelling value.compact.toList [.scalar value] ∧
      ∀ level, value.prettyAt level = value.compact := by
  cases value with
  | null => exact ⟨rfl, .word rfl, fun level => rfl⟩
  | bool b => cases b <;> exact ⟨rfl, .word rfl, fun level => rfl⟩
  | num n => exact ⟨rfl, .word rfl, fun level => rfl⟩
  | str text => exact ⟨rfl, .string text, fun level => rfl⟩
  | arr items => cases hitems
  | obj fields => cases hfields

/-- A field is written with a colon, and perhaps a blank behind it. -/
theorem spelling_field {blank : List Char} {text : String} {tokens : List Token} (key : String)
    (hblank : AreBlanks blank) (h : Spelling text.toList tokens) :
    Spelling ((quote key).toList ++ ':' :: blank ++ text.toList)
      (.scalar (.str key) :: .colon :: tokens) := by
  have hcolon : Spelling (':' :: (blank ++ text.toList)) (.colon :: tokens) :=
    .after_mark rfl (h.after_blanks hblank)
  simpa using (Spelling.string key).append (fun rest => endsWord_cons rfl _) hcolon

/-- The texts of parts spell their tokens if each does. -/
theorem forall₂_spelling {α : Type} {parts : List α} {text : α → String} {tokens : α → List Token}
    (h : ∀ part ∈ parts, Spelling (text part).toList (tokens part)) :
    List.Forall₂ Spelling ((parts.map text).map String.toList) (parts.map tokens) := by
  simpa [List.forall₂_map_left_iff, List.forall₂_map_right_iff, List.forall₂_same] using h

theorem areBlanks_nil : AreBlanks [] := by simp [AreBlanks]

/-- **The text on one line is made of the tokens of the value.** -/
theorem spelling_compact (value : Json) : Spelling value.compact.toList value.toTokens := by
  induction value using induct with
  | leaf value hfields hitems =>
    obtain ⟨htokens, hspelling, -⟩ := spelling_leaf hfields hitems
    rw [htokens]
    exact hspelling
  | arr items ih =>
    have hspelling := (Spelling.intercalate areBlanks_nil (forall₂_spelling ih)).between
      .openArray .closeArray rfl rfl areBlanks_nil
    rw [toTokens, itemTokens_eq_map, compact, compactItems_eq_map]
    simpa [String.toList_intercalate] using hspelling
  | obj fields ih =>
    have hfields : ∀ field ∈ fields, Spelling (quote field.1 ++ ":" ++ compact field.2).toList
        (.scalar (.str field.1) :: .colon :: toTokens field.2) := by
      intro field hfield
      simpa using spelling_field field.1 areBlanks_nil (ih field hfield)
    have hspelling := (Spelling.intercalate areBlanks_nil (forall₂_spelling hfields)).between
      .openObject .closeObject rfl rfl areBlanks_nil
    rw [toTokens, fieldTokens_eq_map, compact, compactFields_eq_map]
    simpa [String.toList_intercalate] using hspelling

theorem prettyItems_eq_map (level : ℕ) (items : List Json) :
    prettyItems level items = items.map (prettyAt level) := by
  induction items with
  | nil => rfl
  | cons item rest ih => rw [prettyItems, ih, List.map_cons]

theorem prettyFields_eq_map (level : ℕ) (fields : List (String × Json)) :
    prettyFields level fields =
      fields.map fun field => quote field.1 ++ ": " ++ prettyAt level field.2 := by
  induction fields with
  | nil => rfl
  | cons field rest ih => rw [prettyFields, ih, List.map_cons]

theorem areBlanks_lineBreak (level : ℕ) : AreBlanks (lineBreak level).toList := by
  intro c hc
  rw [lineBreak, String.toList_ofList] at hc
  rcases List.mem_cons.1 hc with rfl | hc
  · rfl
  · rw [List.eq_of_mem_replicate hc]
    rfl

/-- Parts on lines of their own are made of the tokens of the parts. -/
theorem spelling_block {opening closing : String} {first last : Token} {a b : Char}
    (hopening : opening.toList = [a]) (hfirst : first.mark? = some a)
    (hclosing : closing.toList = [b]) (hlast : last.mark? = some b) (level : ℕ)
    {parts : List String} {tokens : List (List Token)}
    (h : List.Forall₂ Spelling (parts.map String.toList) tokens) :
    Spelling (block opening closing level parts).toList
      (first :: ([.comma] : List Token).intercalate tokens ++ [last]) := by
  rw [block]
  split_ifs with hempty
  · obtain rfl := List.isEmpty_iff.1 hempty
    cases h
    simpa [hopening, hclosing] using Spelling.nil.between first last hfirst hlast areBlanks_nil
  · have hinside := (Spelling.intercalate (areBlanks_lineBreak (level + 1)) h).after_blanks
      (areBlanks_lineBreak (level + 1))
    simpa [hopening, hclosing, String.toList_intercalate] using
      hinside.between first last hfirst hlast (areBlanks_lineBreak level)

/-- **The indented text is made of the tokens of the value**, too. -/
theorem spelling_prettyAt (value : Json) (level : ℕ) :
    Spelling (value.prettyAt level).toList value.toTokens := by
  induction value using induct generalizing level with
  | leaf value hfields hitems =>
    obtain ⟨htokens, hspelling, hpretty⟩ := spelling_leaf hfields hitems
    rw [htokens, hpretty]
    exact hspelling
  | arr items ih =>
    rw [toTokens, itemTokens_eq_map, prettyAt, prettyItems_eq_map]
    exact spelling_block rfl rfl rfl rfl level
      (forall₂_spelling fun item hitem => ih item hitem (level + 1))
  | obj fields ih =>
    rw [toTokens, fieldTokens_eq_map, prettyAt, prettyFields_eq_map]
    refine spelling_block rfl rfl rfl rfl level (forall₂_spelling fun field hfield => ?_)
    have hblank : AreBlanks [' '] := by simp [AreBlanks, Lexer.isBlank]
    simpa using spelling_field field.1 hblank (ih field hfield (level + 1))

/-- What spells the tokens of a value still does with a line break at its end. -/
theorem Spelling.spells_line {text : String} {tokens : List Token}
    (h : Spelling text.toList tokens) : Spells (text ++ "\n").toList tokens := by
  have hend : Spells ['\n'] [] := .blank rfl .nil
  simpa using h ['\n'] [] (endsWord_cons rfl []) hend

end ApiDigest.Json
