/-
  Names inside pointers.

  A pointer such as `#/components/schemas/a~1b` names an entry of a table; in the
  name a slash is written `~1` and a tilde `~0`.

  * `unescape` reads a name, `escape` writes one;
  * `nameUnder?` is the name that a pointer holds behind a fixed beginning.
-/
import ApiDigest.Text

namespace ApiDigest.Pointer

/-! ## Escaping -/

/-- Replaces each tilde with the given mark behind it by a character. -/
def replaceMark (mark char : Char) : List Char → List Char
  | [] => []
  | [c] => [c]
  | c :: d :: rest =>
    if c = '~' && d = mark then char :: replaceMark mark char rest
    else c :: replaceMark mark char (d :: rest)

/-- The characters that an escaped name stands for: `~1` is a slash, and after
    that `~0` is a tilde. -/
def unescapeChars (text : List Char) : List Char :=
  replaceMark '0' '~' (replaceMark '1' '/' text)

/-- The name that an escaped name stands for. -/
def unescape (text : String) : String := String.ofList (unescapeChars text.toList)

/-- A character of a name as it stands in a pointer. -/
def escapeChar (c : Char) : List Char :=
  if c = '~' then ['~', '0'] else if c = '/' then ['~', '1'] else [c]

/-- A name as it stands in a pointer. -/
def escape (name : String) : String := String.ofList (name.toList.flatMap escapeChar)

/-! ## Tables -/

/-- The name behind a fixed beginning of a pointer. -/
def nameUnder? (start pointer : String) : Option String :=
  (Text.afterStart? start pointer).map unescape

/-- The beginning of a pointer into the schema table. -/
def schemaTable : String := "#/components/schemas/"

/-- The beginning of a pointer to a property of the same schema. -/
def siblingTable : String := "#/properties/"

end ApiDigest.Pointer
