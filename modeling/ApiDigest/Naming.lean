/-
  Names made from path segments, and names that are still free.

  * `pascalSegment` turns a path segment into the letters, digits and underscores
    of an identifier;
  * `freeName` is the first of `base`, `base2`, `base3`, ... that is not taken.
    Among `taken.length + 1` candidates one is free, so the search is bounded;
  * `freeNames` takes free names for several bases in turn.
-/
import ApiDigest.Text.Uppercase
import ApiDigest.Text

namespace ApiDigest.Naming

/-! ## Identifiers from segments -/

/-- A text with its first character in upper case. -/
def capitalizeChars : List Char → List Char
  | [] => []
  | c :: rest => Text.upperCase c ++ rest

/-- A text with its first character in upper case. -/
def capitalize (text : String) : String := String.ofList (capitalizeChars text.toList)

/-- The characters at which a segment falls into words. -/
def isWordBreak (c : Char) : Bool := c = '-' || c = '.' || c = ' '

/-- The characters that an identifier keeps. -/
def isIdentifierChar (c : Char) : Bool := c.isAlphanum || c = '_'

/-- The words of a segment, each capitalised, without the characters that an
    identifier cannot have. -/
def pascalChars (segment : List Char) : List Char :=
  (Text.pieces isWordBreak segment).flatMap fun word =>
    capitalizeChars (word.filter isIdentifierChar)

/-- The words of a segment, each capitalised and joined. -/
def pascalSegment (segment : String) : String := String.ofList (pascalChars segment.toList)

/-- Whether a segment marks a version: `v` and digits. -/
def isVersionChars : List Char → Bool
  | 'v' :: digits => !digits.isEmpty && digits.all Char.isDigit
  | _ => false

/-- Whether a segment marks a version: `v` and digits. -/
def isVersion (segment : String) : Bool := isVersionChars segment.toList

/-- Whether a segment is a parameter in braces. -/
def isParameterChars (segment : List Char) : Bool :=
  segment.head? = some '{' && segment.getLast? = some '}'

/-- Whether a segment is a parameter in braces. -/
def isParameter (segment : String) : Bool := isParameterChars segment.toList

/-! ## Free names -/

/-- The candidates for a name: the base, then the base with 2, 3, ... appended. -/
def candidate (base : String) : Nat → String
  | 0 => base
  | k + 1 => base ++ toString (k + 2)

/-- The first free candidate from number `k` on, among `tries` candidates and the
    one after them. -/
def freeNameFrom (taken : List String) (base : String) : Nat → Nat → String
  | 0, k => candidate base k
  | tries + 1, k =>
    if candidate base k ∈ taken then freeNameFrom taken base tries (k + 1) else candidate base k

/-- The first candidate for a base that is not taken. -/
def freeName (taken : List String) (base : String) : String :=
  freeNameFrom taken base taken.length 0

/-- A free name for each base in turn, each then taken itself. -/
def freeNames (taken : List String) : List String → List String
  | [] => []
  | base :: bases =>
    let name := freeName taken base
    name :: freeNames (name :: taken) bases

end ApiDigest.Naming
