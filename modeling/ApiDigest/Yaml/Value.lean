/-
  YAML values.

  A plain scalar without a tag may spell null, a boolean, an integer or a double;
  every other scalar is a string unless a tag says otherwise.

  * `Value.ofPlain?` is the value that a plain scalar spells;
  * `Value.sameAs` is the equality under which keys must differ.
-/
import ApiDigest.Number.Binary64
import ApiDigest.Text

namespace ApiDigest.Yaml

/-! ## Values -/

/-- A YAML value. -/
inductive Value where
  | null
  | bool (value : Bool)
  | int (value : Int)
  | double (value : Binary64)
  | string (value : String)
  | sequence (items : List Value)
  | mapping (entries : List (Value × Value))
  | tagged (tag : String) (value : Value)
deriving Inhabited

namespace Value

/-! ## Equality -/

mutual

/-- Whether two values are equal: doubles by value, mappings whatever their order. -/
def sameAs : Value → Value → Bool
  | .null, .null => true
  | .bool a, .bool b => a = b
  | .int a, .int b => a = b
  | .double a, .double b => a.sameValue b
  | .string a, .string b => a = b
  | .sequence as, .sequence bs => sameItems as bs
  | .mapping as, .mapping bs => as.length = bs.length && sameEntries as bs
  | .tagged s a, .tagged t b => s = t && sameAs a b
  | _, _ => false

/-- Whether two lists of values are equal. -/
def sameItems : List Value → List Value → Bool
  | [], [] => true
  | a :: as, b :: bs => sameAs a b && sameItems as bs
  | _, _ => false

/-- Whether every entry occurs among other entries. -/
def sameEntries : List (Value × Value) → List (Value × Value) → Bool
  | [], _ => true
  | (k, v) :: rest, others =>
    others.any (fun other => sameAs k other.1 && sameAs v other.2) && sameEntries rest others

end

end Value

/-! ## Numbers -/

/-- The value of digits in a base; nothing if one is none or there are none. -/
def digitsIn? (base : Nat) (digits : List Char) : Option Nat :=
  let value? (c : Char) : Option Nat := (Text.hexValue? c).filter (· < base)
  if digits.isEmpty then none
  else digits.foldl (fun n c => n.bind fun n => (value? c).map fun d => base * n + d) (some 0)

/-- A number of digits after a mark for its base, or in base ten without one. -/
def natural? : List Char → Option Nat
  | '0' :: 'x' :: digits => digitsIn? 16 digits
  | '0' :: 'o' :: digits => digitsIn? 8 digits
  | '0' :: 'b' :: digits => digitsIn? 2 digits
  | digits => digitsIn? 10 digits

/-- Whether a text is a sign and digits that start with a zero too many. -/
def hasLeadingZero (text : List Char) : Bool :=
  let digits := match text with
    | '-' :: rest => rest
    | '+' :: rest => rest
    | rest => rest
  match digits with
  | '0' :: d :: rest => (d :: rest).all Char.isDigit
  | _ => false

/-- The integer that a text spells. -/
def integer? (text : List Char) : Option Int :=
  if hasLeadingZero text then none
  else
    match text with
    | '-' :: rest => (natural? rest).map fun n => -(n : Int)
    | '+' :: rest => (natural? rest).map fun n => (n : Int)
    | rest => (natural? rest).map fun n => (n : Int)

/-- The exponent behind its mark, up to the end of the text. -/
def exponent? (text : List Char) : Option Int :=
  match text with
  | '-' :: rest => (digitsIn? 10 rest).map fun n => -(n : Int)
  | '+' :: rest => (digitsIn? 10 rest).map fun n => (n : Int)
  | rest => (digitsIn? 10 rest).map fun n => (n : Int)

/-- Below this power of ten every decimal is rounded to zero. -/
def minExponent : Int := -400

/-- Beyond this power of ten no decimal is rounded to a finite double. -/
def maxExponent : Int := 400

/-- The finite double that digits with a point and an exponent spell: on one side of
    the point there has to be a digit. -/
def decimal? (negative : Bool) (text : List Char) : Option Binary64 :=
  let whole := text.takeWhile Char.isDigit
  let rest := text.dropWhile Char.isDigit
  let (fraction, rest) := match rest with
    | '.' :: rest => (rest.takeWhile Char.isDigit, rest.dropWhile Char.isDigit)
    | rest => ([], rest)
  let e : Option Int := match rest with
    | [] => some 0
    | c :: rest => if c = 'e' || c = 'E' then exponent? rest else none
  match e with
  | none => none
  | some e =>
    if whole.isEmpty && fraction.isEmpty then none
    else
      let significant := (whole ++ fraction).dropWhile (· = '0')
      let e := e - fraction.length
      let top := significant.length + e
      if significant.isEmpty || top < minExponent then some (.zero negative)
      else if maxExponent < top then none
      else
        let digits := significant.foldl (fun n c => 10 * n + (c.toNat - '0'.toNat)) 0
        let x := Binary64.ofDecimal negative digits e
        if x.isFinite then some x else none

/-- The finite double that a text with a sign spells. -/
def finite? : List Char → Option Binary64
  | '-' :: rest => decimal? true rest
  | rest => decimal? false rest

/-- The double that a text spells. -/
def double? (text : List Char) : Option Binary64 :=
  let positive (rest : List Char) : Option Binary64 :=
    if [".inf", ".Inf", ".INF"].any (·.toList = rest) then some (.infinity false) else none
  match text with
  | '+' :: rest => (positive rest).or (decimal? false rest)
  | text =>
    if ["-.inf", "-.Inf", "-.INF"].any (·.toList = text) then some (.infinity true)
    else if [".nan", ".NaN", ".NAN"].any (·.toList = text) then some .nan
    else (positive text).or (finite? text)

/-! ## Plain scalars -/

/-- Whether a text spells null, the empty one aside. -/
def isNullWord (text : String) : Bool := ["null", "Null", "NULL", "~"].contains text

/-- The boolean that a text spells. -/
def boolean? (text : String) : Option Bool :=
  if ["true", "True", "TRUE"].contains text then some true
  else if ["false", "False", "FALSE"].contains text then some false
  else none

/-- Whether an integer has at most 64 bits, with or without a sign. -/
def isShort (n : Int) : Bool := -0x8000000000000000 ≤ n && n < 0x10000000000000000

/-- Whether an integer has at most 128 bits, with or without a sign. -/
def isLong (n : Int) : Bool :=
  -0x80000000000000000000000000000000 ≤ n && n < 0x100000000000000000000000000000000

namespace Value

/-- The integer that a text spells.  Integers of more than 64 bits are refused, and
    those of more than 128 bits are no integers. -/
def ofInteger (text : List Char) : Option (Option Value) :=
  match integer? text with
  | none => none
  | some n => if isShort n then some (some (.int n)) else if isLong n then some none else none

/-- The value that a plain scalar spells. -/
def ofPlain? (text : String) : Option Value :=
  if text = "" || isNullWord text then some .null
  else
    match boolean? text with
    | some value => some (.bool value)
    | none =>
      match ofInteger text.toList with
      | some value => value
      | none =>
        if hasLeadingZero text.toList then some (.string text)
        else
          match double? text.toList with
          | some x => some (.double x)
          | none => some (.string text)

/-- The beginning of the tags that name types of scalars. -/
def coreTag : String := "tag:yaml.org,2002:"

/-- The value of a scalar with a tag that is not its own: the tag of a type has to be
    met, any other makes a string. -/
def ofTagged? (tag text : String) : Option Value :=
  if tag = coreTag ++ "bool" then (boolean? text).map .bool
  else if tag = coreTag ++ "int" then (ofInteger text.toList).join
  else if tag = coreTag ++ "float" then (double? text.toList).map .double
  else if tag = coreTag ++ "null" then if isNullWord text then some .null else none
  else some (.string text)

end Value
end ApiDigest.Yaml
