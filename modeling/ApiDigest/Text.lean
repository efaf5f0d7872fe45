/-
  Characters by class, and cutting text into pieces.

  * `hexValue?` is the value of a hexadecimal digit, `isBlank` holds of white space of
    any script;
  * `pieces p` cuts at every character of `p`; there is one piece more than there
    are cuts, and pieces may be empty;
  * `stripStart?` removes a fixed beginning;
  * `trimEnd` drops trailing characters of a class.
-/

namespace ApiDigest.Text

/-! ## Characters -/

/-- The value of a hexadecimal digit, in either case of letters. -/
def hexValue? (c : Char) : Option Nat :=
  if c.isDigit then some (c.toNat - '0'.toNat)
  else if 'a' ≤ c && c ≤ 'f' then some (c.toNat - 'a'.toNat + 10)
  else if 'A' ≤ c && c ≤ 'F' then some (c.toNat - 'A'.toNat + 10)
  else none

/-- The character with a number, if there is one. -/
def charOf? (n : Nat) : Option Char := if n.isValidChar then some (Char.ofNat n) else none

/-- The runs of white space, by their first and last code points. -/
def blankRuns : List (Nat × Nat) :=
  [(0x9, 0xD), (0x20, 0x20), (0x85, 0x85), (0xA0, 0xA0), (0x1680, 0x1680), (0x2000, 0x200A),
    (0x2028, 0x2029), (0x202F, 0x202F), (0x205F, 0x205F), (0x3000, 0x3000)]

/-- Whether a character is white space. -/
def isBlank (c : Char) : Bool := blankRuns.any fun run => run.1 ≤ c.toNat && c.toNat ≤ run.2

/-! ## Pieces -/

/-- The pieces between the characters of a class. -/
def pieces (isCut : Char → Bool) : List Char → List (List Char)
  | [] => [[]]
  | c :: rest =>
    if isCut c then [] :: pieces isCut rest
    else
      match pieces isCut rest with
      | [] => [[c]]
      | piece :: others => (c :: piece) :: others

/-- What follows a fixed beginning, if the text has it. -/
def stripStart? : List Char → List Char → Option (List Char)
  | [], text => some text
  | _ :: _, [] => none
  | s :: start, c :: text => if s = c then stripStart? start text else none

/-- Whether a text has a fixed beginning. -/
def startsWith (start text : String) : Bool := (stripStart? start.toList text.toList).isSome

/-- What follows a fixed beginning of a text, if it has it. -/
def afterStart? (start text : String) : Option String :=
  (stripStart? start.toList text.toList).map String.ofList

/-- Whether a text has a fixed ending. -/
def endsWith (ending text : String) : Bool :=
  (stripStart? ending.toList.reverse text.toList.reverse).isSome

/-- The text without its trailing characters of a class. -/
def trimEnd (isTrimmed : Char → Bool) (text : List Char) : List Char :=
  (text.reverse.dropWhile isTrimmed).reverse

/-- Whether a text has another one inside. -/
def hasInside (part : List Char) : List Char → Bool
  | [] => part.isEmpty
  | c :: rest => (stripStart? part (c :: rest)).isSome || hasInside part rest

/-- The lower case of the letters `A` to `Z`; other characters stay. -/
def lowerAscii (text : List Char) : List Char := text.map Char.toLower

/-- Whether a text has nothing but white space. -/
def isAllBlank (text : String) : Bool := text.toList.all isBlank

/-- The text without white space at its end. -/
def trimEndBlank (text : String) : String := String.ofList (trimEnd isBlank text.toList)

end ApiDigest.Text
