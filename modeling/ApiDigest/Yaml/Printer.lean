/-
  Values as YAML text.

  Collections are written as blocks, two blanks a level; the items of a sequence
  are not deeper than the mapping around it, and empty collections are `[]` and
  `{}`.  Strings are written plainly where they read back as they are.

  * `stringText` is the text of a string;
  * `Value.blockText?` is the text of any value; there are a few that cannot be
    written.
-/
import ApiDigest.Number.Decimal
import ApiDigest.Yaml.Cell
import ApiDigest.Yaml.Value

namespace ApiDigest.Yaml

/-! ## Numbers -/

/-- Doubles are positional from `0.00001` up to below `10 ^ 16`. -/
def doubleStyle : Decimal.Style := ⟨-5, 16, false⟩

/-- The text of a double. -/
def doubleText (x : Binary64) : String :=
  if x.isFinite then x.render doubleStyle
  else if x.isNaN then ".nan"
  else if x.negative then "-.inf" else ".inf"

/-! ## Strings -/

/-- A line break of any kind, as it stands in a string. -/
def isAnyBreak (c : Char) : Bool := isBreak c || c = '\r' || c = '\u0085'

/-- A blank, a tab or a line break of any kind. -/
def isAnySpace (c : Char) : Bool := isBlank c || isAnyBreak c

/-- A character that is written as it is. -/
def isPrintable (c : Char) : Bool :=
  let n := c.toNat
  n = 0xA || (0x20 ≤ n && n ≤ 0x7E) || (0xA0 ≤ n && n ≤ 0xFFFD && n ≠ 0xFEFF)

/-- The characters that a plain scalar cannot start with. -/
def isLeadIndicator (c : Char) : Bool := "#,[]\x7b\x7d&*!|>\x27\"%@\x60".toList.contains c

/-- Whether the characters after the first ones structure the text: a colon before a
    space, or a hash sign after one. -/
def hasIndicator (afterSpace : Bool) : List Char → Bool
  | [] => false
  | c :: rest =>
    let beforeSpace := rest.head?.all isAnySpace
    (c = ':' && beforeSpace) || (c = '#' && afterSpace) || hasIndicator (isAnySpace c) rest

/-- Whether the text has characters that structure it. -/
def hasIndicators (text : List Char) : Bool :=
  match text with
  | [] => false
  | c :: rest =>
    let beforeSpace := rest.head?.all isAnySpace
    isLeadIndicator c || ((c = '?' || c = ':' || c = '-') && beforeSpace) ||
      text.take 3 = ['-', '-', '-'] || text.take 3 = ['.', '.', '.'] ||
      hasIndicator (isAnySpace c) rest

/-- Whether a character of one class follows directly one of another. -/
def hasPair (p q : Char → Bool) : List Char → Bool
  | c :: d :: rest => (p c && q d) || hasPair p q (d :: rest)
  | _ => false

/-- The ways of writing a string. -/
inductive StringStyle where
  | plain
  | single
  | double
  | literal

/-- Whether a text can be written between single quotes. -/
def allowsSingle (text : List Char) : Bool :=
  text.all isPrintable && !hasPair (· = ' ') isAnyBreak text && !hasPair isAnyBreak (· = ' ') text

/-- Whether a text can be written without quotes. -/
def allowsPlain (text : List Char) : Bool :=
  !text.isEmpty && allowsSingle text && !text.any isAnyBreak && text.head? ≠ some ' ' &&
    text.getLast? ≠ some ' ' && !hasIndicators text

/-- Whether a text can be written line by line. -/
def allowsLiteral (text : List Char) : Bool :=
  !text.isEmpty && text.all isPrintable && !hasPair (· = ' ') isAnyBreak text &&
    text.getLast? ≠ some ' '

/-- Whether a text without quotes would be read as something else. -/
def needsQuotes (text : String) : Bool :=
  match Value.ofPlain? text with
  | some (.string _) => hasLeadingZero text.toList
  | _ => true

/-- How a string is written. -/
def stringStyle (text : String) : StringStyle :=
  let chars := text.toList
  if chars.contains '\n' then if allowsLiteral chars then .literal else .double
  else if !needsQuotes text && allowsPlain chars then .plain
  else if allowsSingle chars then .single
  else .double

/-- The hexadecimal digits of a number, at least as many as given. -/
def hexDigits (width n : Nat) : List Char :=
  let digits := (Nat.toDigits 16 n).map Char.toUpper
  List.replicate (width - digits.length) '0' ++ digits

/-- The letters of escapes between double quotes. -/
def escapeLetters : List (Nat × Char) :=
  [(0x00, '0'), (0x07, 'a'), (0x08, 'b'), (0x09, 't'), (0x0A, 'n'), (0x0B, 'v'), (0x0C, 'f'),
    (0x0D, 'r'), (0x1B, 'e'), (0x22, '"'), (0x5C, '\\'), (0x85, 'N'), (0xA0, '_'), (0x2028, 'L'),
    (0x2029, 'P')]

/-- A character between double quotes. -/
def escapeDouble (c : Char) : List Char :=
  if isPrintable c && !isAnyBreak c && c ≠ '"' && c ≠ '\\' then [c]
  else
    match escapeLetters.find? fun entry => entry.1 = c.toNat with
    | some (_, letter) => ['\\', letter]
    | none =>
      if c.toNat ≤ 0xFF then '\\' :: 'x' :: hexDigits 2 c.toNat
      else if c.toNat ≤ 0xFFFF then '\\' :: 'u' :: hexDigits 4 c.toNat
      else '\\' :: 'U' :: hexDigits 8 c.toNat

/-- Blanks up to a column. -/
def indentation (column : Nat) : String := String.ofList (List.replicate column ' ')

/-- A line break and the blanks of the next line. -/
def newLine (column : Nat) : String := "\n" ++ indentation column

/-- What stands behind the indicator of literal lines: a digit where the indentation
    does not show, and a sign for the line breaks at the end. -/
def literalHints (text : List Char) : String :=
  let digit := if text.head?.any fun c => c = ' ' || isAnyBreak c then "2" else ""
  let sign := match text.reverse with
    | [] => "-"
    | [c] => if isAnyBreak c then "+" else "-"
    | c :: d :: _ => if !isAnyBreak c then "-" else if isAnyBreak d then "+" else ""
  digit ++ sign

/-- Literal lines at a column; empty lines have no blanks. -/
def literalText (column : Nat) (text : List Char) : String :=
  let line (chars : List Char) : List Char :=
    if chars.isEmpty then ['\n'] else '\n' :: List.replicate column ' ' ++ chars
  "|" ++ literalHints text ++ String.ofList ((Text.pieces (· = '\n') text).flatMap line)

/-- The text of a string whose lines, if it has several, stand at a column. -/
def stringText (column : Nat) (text : String) : String :=
  match stringStyle text with
  | .plain => text
  | .single =>
    String.ofList ('\x27' :: text.toList.flatMap (fun c =>
      if c = '\x27' then ['\x27', '\x27'] else [c]) ++ ['\x27'])
  | .double => String.ofList ('"' :: text.toList.flatMap escapeDouble ++ ['"'])
  | .literal => literalText column text.toList

/-! ## Tags -/

/-- A character that stands for itself in a tag. -/
def isPlainTagChar (c : Char) : Bool :=
  c.isAlphanum || "-;/?:@&=+$,_.!~*()[]\x27".toList.contains c

/-- A byte as a percent sign and two hexadecimal digits. -/
def percentEscape (byte : UInt8) : List Char := '%' :: hexDigits 2 byte.toNat

/-- The text of a tag. -/
def tagText (tag : String) : String :=
  String.ofList ('!' :: tag.toList.flatMap fun c =>
    if isPlainTagChar c then [c]
    else (String.singleton c).toUTF8.toList.flatMap percentEscape)

/-! ## Places -/

/-- Where a value stands: the columns of what would be its lines. -/
structure Place where
  sequence : Nat
  taggedSequence : Nat
  mapping : Nat
  text : Nat
  /-- Whether a collection starts on the line that it stands on. -/
  sameLine : Bool

/-- A whole document. -/
def Place.document : Place := ⟨0, 0, 0, 2, true⟩

/-- An item of a sequence at a column. -/
def Place.item (column : Nat) : Place :=
  ⟨column + 2, column + 2, column + 2, column + 2, true⟩

/-- The key or value of a mapping at a column, each on lines of its own. -/
def Place.marked (column : Nat) : Place := ⟨column + 2, column, column + 2, column + 2, true⟩

/-- The value behind a key of a mapping at a column. -/
def Place.value (column : Nat) : Place := ⟨column, column, column + 2, column + 2, false⟩

/-- The place behind a tag. -/
def Place.tagged (place : Place) : Place :=
  { place with sequence := place.taggedSequence, sameLine := false }

/-- What comes before the first line of a collection at a column. -/
def Place.lead (place : Place) (column : Nat) : String :=
  if place.sameLine then " " else newLine column

/-- Puts a line at a column behind other text. -/
def addLine (column : Nat) (text line : String) : String :=
  if text.toList.getLast? = some '\n' then text ++ indentation column ++ line
  else text ++ newLine column ++ line

/-- Lines at a column, one behind the other. -/
def joinLines (column : Nat) : List String → String
  | [] => ""
  | line :: rest => rest.foldl (addLine column) line

/-! ## Values -/

namespace Value

/-- The longest key that stands before its colon without a mark. -/
def maxKeyBytes : Nat := 128

/-- Whether a value can stand before its colon without a mark, `used` bytes being taken by
    its tag. -/
def isShortKey (used : Nat) : Value → Bool
  | .string text =>
    !text.toList.any isAnyBreak && used + text.utf8ByteSize ≤ maxKeyBytes
  | .sequence items => items.isEmpty && used ≤ maxKeyBytes
  | .mapping entries => entries.isEmpty && used ≤ maxKeyBytes
  | .tagged tag value => isShortKey (used + tag.utf8ByteSize + 1) value
  | _ => true

/-- Whether a value is a mapping with one entry, or tagged. -/
def isLoneEntry : Value → Bool
  | .mapping [_] => true
  | .tagged _ _ => true
  | _ => false

/-- Whether a value is tagged. -/
def isTagged : Value → Bool
  | .tagged _ _ => true
  | _ => false

mutual

/-- The text of a value behind an indicator, with what separates the two. -/
def textAt? (place : Place) (inTag : Bool) : Value → Option String
  | .null => some " null"
  | .bool true => some " true"
  | .bool false => some " false"
  | .int n => some (" " ++ toString n)
  | .double x => some (" " ++ doubleText x)
  | .string text => some (" " ++ stringText place.text text)
  | .sequence [] => some " []"
  | .sequence (item :: items) =>
    (itemTexts? place.sequence (item :: items)).map fun lines =>
      place.lead place.sequence ++ joinLines place.sequence lines
  | .mapping [] => some " \x7b\x7d"
  | .mapping (entry :: entries) =>
    -- an entry whose key would be taken for its tag cannot be written
    if !inTag && entries.isEmpty && entry.1.isLoneEntry then none
    else
      (entryTexts? place.mapping (entry :: entries)).map fun lines =>
        place.lead place.mapping ++ joinLines place.mapping lines
  | .tagged tag value =>
    if value.isTagged then none
    else (textAt? place.tagged true value).map fun text => " " ++ tagText tag ++ text

/-- The lines of the items of a sequence at a column. -/
def itemTexts? (column : Nat) : List Value → Option (List String)
  | [] => some []
  | item :: rest =>
    (textAt? (.item column) false item).bind fun text =>
      (itemTexts? column rest).map fun texts => ("-" ++ text) :: texts

/-- The lines of the entries of a mapping at a column. -/
def entryTexts? (column : Nat) : List (Value × Value) → Option (List String)
  | [] => some []
  | (key, value) :: rest =>
    let entry : Option String :=
      if key.isShortKey 0 then
        (textAt? (.marked column) false key).bind fun keyText =>
          (textAt? (.value column) false value).map fun valueText =>
            String.ofList (keyText.toList.drop 1) ++ ":" ++ valueText
      else
        (textAt? (.marked column) false key).bind fun keyText =>
          (textAt? (.marked column) false value).map fun valueText =>
            addLine column ("?" ++ keyText) (":" ++ valueText)
    entry.bind fun entry => (entryTexts? column rest).map fun texts => entry :: texts

end

/-- The text of a value as a document of its own; one that ends in empty lines that count has
    an end mark. -/
def blockText? (value : Value) : Option String :=
  (textAt? .document false value).map fun text =>
    let text := String.ofList (text.toList.drop 1)
    if Text.endsWith "\n\n" text then text ++ "..." else text

end Value
end ApiDigest.Yaml
