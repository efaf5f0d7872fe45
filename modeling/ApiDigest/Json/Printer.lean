/-
  JSON text of a value.

  * `Json.compact` writes a value on one line without blanks;
  * `Json.pretty` indents by two blanks a level, and writes empty arrays and
    objects as `[]` and `{}`.

  Strings escape only quotes, backslashes and the control characters below the
  blank.
-/
import ApiDigest.Json

namespace ApiDigest.Json

/-! ## Scalars -/

/-- Doubles are positional from `0.00001` up to below `10 ^ 16`. -/
def doubleStyle : Decimal.Style := ⟨-5, 16, true⟩

/-- A lower case hexadecimal digit. -/
def hexDigit (n : Nat) : Char := Nat.digitChar (n % 16)

/-- A character inside a string. -/
def escape (c : Char) : List Char :=
  if c = '"' then ['\\', '"']
  else if c = '\\' then ['\\', '\\']
  else if c = '\n' then ['\\', 'n']
  else if c = '\r' then ['\\', 'r']
  else if c = '\t' then ['\\', 't']
  else if c = '\x08' then ['\\', 'b']
  else if c = '\x0c' then ['\\', 'f']
  else if c < ' ' then ['\\', 'u', '0', '0', hexDigit (c.toNat / 16), hexDigit c.toNat]
  else [c]

/-- A string in quotes. -/
def quote (text : String) : String :=
  String.ofList ('"' :: text.toList.flatMap escape ++ ['"'])

/-- The text of a number; what is no finite double has none and is `null`. -/
def Number.render : Number → String
  | .int n => toString n
  | .double x => if x.isFinite then x.render doubleStyle else "null"

/-! ## One line -/

mutual

/-- The text of a value on one line. -/
def compact : Json → String
  | .null => "null"
  | .bool true => "true"
  | .bool false => "false"
  | .num n => n.render
  | .str text => quote text
  | .arr items => "[" ++ String.intercalate "," (compactItems items) ++ "]"
  | .obj fields => "\x7b" ++ String.intercalate "," (compactFields fields) ++ "\x7d"

/-- The texts of the items of an array. -/
def compactItems : List Json → List String
  | [] => []
  | v :: rest => compact v :: compactItems rest

/-- The texts of the fields of an object. -/
def compactFields : List (String × Json) → List String
  | [] => []
  | (k, v) :: rest => (quote k ++ ":" ++ compact v) :: compactFields rest

end

/-! ## Indented -/

/-- A line break followed by the indentation of a level. -/
def lineBreak (level : Nat) : String := String.ofList ('\n' :: List.replicate (2 * level) ' ')

/-- Parts between brackets, each on a line of its own. -/
def block (opening closing : String) (level : Nat) (parts : List String) : String :=
  if parts.isEmpty then opening ++ closing
  else
    opening ++ lineBreak (level + 1) ++
      String.intercalate ("," ++ lineBreak (level + 1)) parts ++ lineBreak level ++ closing

mutual

/-- The indented text of a value that stands at a level. -/
def prettyAt (level : Nat) : Json → String
  | .arr items => block "[" "]" level (prettyItems (level + 1) items)
  | .obj fields => block "\x7b" "\x7d" level (prettyFields (level + 1) fields)
  | .null => "null"
  | .bool true => "true"
  | .bool false => "false"
  | .num n => n.render
  | .str text => quote text

/-- The indented texts of the items of an array. -/
def prettyItems (level : Nat) : List Json → List String
  | [] => []
  | v :: rest => prettyAt level v :: prettyItems level rest

/-- The indented texts of the fields of an object. -/
def prettyFields (level : Nat) : List (String × Json) → List String
  | [] => []
  | (k, v) :: rest => (quote k ++ ": " ++ prettyAt level v) :: prettyFields level rest

end

/-- The indented text of a value. -/
def pretty (value : Json) : String := prettyAt 0 value

end ApiDigest.Json
