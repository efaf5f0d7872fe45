/-
  The tokens of JSON text.

  Reading runs over the characters with a mode: between tokens, inside a string,
  or inside a word.  A word is a longest run of letters, digits, signs and
  points; it has to be a number or one of the three names.

  * `Number.read` gives an integer for what fits 64 bits, signed or unsigned, and
    a double for everything else: the leading digits that fit 64 bits, rounded,
    times a power of ten;
  * `tokens` is the token sequence of a text, or nothing.
-/
import ApiDigest.Json
import ApiDigest.Text

namespace ApiDigest.Json

/-! ## Numbers -/

/-- The value of a decimal digit. -/
def digit? (c : Char) : Option Nat := if c.isDigit then some (c.toNat - '0'.toNat) else none

/-- The leading decimal digits and what follows them. -/
def spanDigits : List Char → List Nat × List Char
  | [] => ([], [])
  | c :: rest =>
    match digit? c with
    | some d => let (ds, after) := spanDigits rest; (d :: ds, after)
    | none => ([], c :: rest)

/-- The natural that digits spell. -/
def ofDigits (digits : List Nat) : Nat := digits.foldl (fun n d => 10 * n + d) 0

/-- Appends digits to a significand while it fits 64 bits; the rest is left over. -/
def fitDigits (significand : Nat) : List Nat → Nat × List Nat
  | [] => (significand, [])
  | d :: rest =>
    if 10 * significand + d < UInt64.size then fitDigits (10 * significand + d) rest
    else (significand, d :: rest)

namespace Number

/-- The double that digits, fraction and exponent spell; nothing if it is too large. -/
def ofDecimalParts (negative : Bool) (whole fraction : List Nat) (exponent : Int) :
    Option Number :=
  let (significand, dropped) := fitDigits 0 whole
  let (significand, unread) := fitDigits significand fraction
  let read : Int := fraction.length - unread.length
  ((Binary64.ofNat significand).scale10 (exponent + dropped.length - read)).map fun x =>
    .double (if negative then x.neg else x)

/-- The number that digits without fraction and exponent spell. -/
def ofWhole (negative : Bool) (whole : List Nat) : Option Number :=
  let n := ofDigits whole
  if negative then
    if n ≠ 0 && n ≤ 0x8000000000000000 then some (.int (-n)) else ofDecimalParts true whole [] 0
  else if n < UInt64.size then some (.int n) else ofDecimalParts false whole [] 0

/-- The exponent after its mark, which must end the text. -/
def readExponent : List Char → Option Int
  | '-' :: rest => match spanDigits rest with
    | (d :: ds, []) => some (-(ofDigits (d :: ds) : Int))
    | _ => none
  | '+' :: rest => match spanDigits rest with
    | (d :: ds, []) => some (ofDigits (d :: ds))
    | _ => none
  | rest => match spanDigits rest with
    | (d :: ds, []) => some (ofDigits (d :: ds))
    | _ => none

/-- Whether a character marks an exponent. -/
def isExponentMark (c : Char) : Bool := c = 'e' || c = 'E'

/-- A number without its sign. -/
def readUnsigned (negative : Bool) (text : List Char) : Option Number :=
  match spanDigits text with
  | ([], _) => none
  | (0 :: _ :: _, _) => none
  | (whole, []) => ofWhole negative whole
  | (whole, '.' :: rest) =>
    match spanDigits rest with
    | ([], _) => none
    | (fraction, []) => ofDecimalParts negative whole fraction 0
    | (fraction, c :: rest) =>
      if isExponentMark c then
        (readExponent rest).bind fun e => ofDecimalParts negative whole fraction e
      else none
  | (whole, c :: rest) =>
    if isExponentMark c then
      (readExponent rest).bind fun e => ofDecimalParts negative whole [] e
    else none

/-- The number that a text spells. -/
def read : List Char → Option Number
  | '-' :: rest => readUnsigned true rest
  | text => readUnsigned false text

end Number

/-! ## Strings -/

/-- A part of a string: a character, or a unit written with four hexadecimal digits. -/
inductive StringPart where
  | char (c : Char)
  | unit (n : Nat)

/-- Whether a number is the first half of a pair. -/
def isHighHalf (n : Nat) : Bool := 0xD800 ≤ n && n < 0xDC00

/-- Whether a number is the second half of a pair. -/
def isLowHalf (n : Nat) : Bool := 0xDC00 ≤ n && n < 0xE000

/-- The characters of string parts; halves have to come in pairs. -/
def joinParts : List StringPart → Option (List Char)
  | [] => some []
  | .char c :: rest => (joinParts rest).map (c :: ·)
  | .unit n :: rest =>
    if isHighHalf n then
      match rest with
      | .unit m :: rest =>
        if isLowHalf m then
          (joinParts rest).map (Char.ofNat (0x10000 + (n - 0xD800) * 0x400 + (m - 0xDC00)) :: ·)
        else none
      | _ => none
    else if isLowHalf n then none
    else (joinParts rest).map (Char.ofNat n :: ·)

/-- The character that a one-letter escape stands for. -/
def simpleEscape? : Char → Option Char
  | '"' => some '"'
  | '\\' => some '\\'
  | '/' => some '/'
  | 'b' => some '\x08'
  | 'f' => some '\x0c'
  | 'n' => some '\n'
  | 'r' => some '\r'
  | 't' => some '\t'
  | _ => none

/-! ## Tokens -/

/-- A token of JSON text. -/
inductive Token where
  | openArray
  | closeArray
  | openObject
  | closeObject
  | colon
  | comma
  | scalar (value : Json)

/-- Where the lexer stands; parts and characters are kept in reverse. -/
inductive LexMode where
  | between
  | word (chars : List Char)
  | string (parts : List StringPart)
  | escape (parts : List StringPart)
  | unit (parts : List StringPart) (missing value : Nat)

/-- The lexer's mode and the tokens so far, in reverse. -/
structure Lexer where
  mode : LexMode
  out : List Token

namespace Lexer

/-- A character of a number or a name. -/
def isWordChar (c : Char) : Bool := c.isAlphanum || c = '+' || c = '-' || c = '.'

/-- A blank of JSON. -/
def isBlank (c : Char) : Bool := c = ' ' || c = '\t' || c = '\n' || c = '\r'

/-- The value of a word. -/
def wordValue (chars : List Char) : Option Json :=
  if chars = ['n', 'u', 'l', 'l'] then some .null
  else if chars = ['t', 'r', 'u', 'e'] then some (.bool true)
  else if chars = ['f', 'a', 'l', 's', 'e'] then some (.bool false)
  else (Number.read chars).map .num

/-- A character between tokens. -/
def enter (out : List Token) (c : Char) : Option Lexer :=
  if isBlank c then some ⟨.between, out⟩
  else if isWordChar c then some ⟨.word [c], out⟩
  else match c with
    | '"' => some ⟨.string [], out⟩
    | '[' => some ⟨.between, .openArray :: out⟩
    | ']' => some ⟨.between, .closeArray :: out⟩
    | '{' => some ⟨.between, .openObject :: out⟩
    | '}' => some ⟨.between, .closeObject :: out⟩
    | ':' => some ⟨.between, .colon :: out⟩
    | ',' => some ⟨.between, .comma :: out⟩
    | _ => none

/-- One character. -/
def step (lexer : Lexer) (c : Char) : Option Lexer :=
  match lexer.mode with
  | .between => enter lexer.out c
  | .word chars =>
    if isWordChar c then some ⟨.word (c :: chars), lexer.out⟩
    else (wordValue chars.reverse).bind fun value => enter (.scalar value :: lexer.out) c
  | .string parts =>
    if c = '"' then
      (joinParts parts.reverse).map fun text =>
        ⟨.between, .scalar (.str (String.ofList text)) :: lexer.out⟩
    else if c = '\\' then some ⟨.escape parts, lexer.out⟩
    else if c < ' ' then none
    else some ⟨.string (.char c :: parts), lexer.out⟩
  | .escape parts =>
    if c = 'u' then some ⟨.unit parts 3 0, lexer.out⟩
    else (simpleEscape? c).map fun d => ⟨.string (.char d :: parts), lexer.out⟩
  | .unit parts missing value =>
    (Text.hexValue? c).map fun d =>
      match missing with
      | 0 => ⟨.string (.unit (16 * value + d) :: parts), lexer.out⟩
      | m + 1 => ⟨.unit parts m (16 * value + d), lexer.out⟩

/-- The tokens at the end of the text. -/
def finish (lexer : Lexer) : Option (List Token) :=
  match lexer.mode with
  | .between => some lexer.out.reverse
  | .word chars => (wordValue chars.reverse).map fun value => (.scalar value :: lexer.out).reverse
  | _ => none

end Lexer

/-- The tokens of a text; nothing if the text is not made of tokens. -/
def tokens (text : List Char) : Option (List Token) :=
  (text.foldlM Lexer.step ⟨.between, []⟩).bind Lexer.finish

end ApiDigest.Json
