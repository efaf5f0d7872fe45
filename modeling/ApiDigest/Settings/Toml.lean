/-
  The text of a settings file.

  A settings file is a TOML document with at most the three keys `input`, `output`
  and `pretty` at its top, the first two with strings and the last with a truth
  value.  Tables, dotted keys and values of other types have no place in it, so
  only the part of the notation that is left has to be read: lines with a key, a
  string or a truth value, and a comment.

  * `Toml.entries?` gives the keys and values of a text;
  * `Settings.ofText?` gives the settings.
-/
import ApiDigest.Json
import ApiDigest.Settings
import ApiDigest.Text

namespace ApiDigest.Toml

/-! ## Characters -/

/-- A character that may stand in comments and strings. -/
def isAllowed (c : Char) : Bool := c = '\t' || (' ' ≤ c && c ≠ '\x7f')

/-- White space inside a line. -/
def isSpace (c : Char) : Bool := c = ' ' || c = '\t'

/-- A character of a key without quotes. -/
def isKeyChar (c : Char) : Bool := c.isAlphanum || c = '-' || c = '_'

/-- What follows the end of a line, which a line feed makes, alone or behind a carriage
    return. -/
def afterBreak? : List Char → Option (List Char)
  | '\n' :: rest => some rest
  | '\r' :: '\n' :: rest => some rest
  | _ => none

/-- The text without white space at its start. -/
def skipSpace (text : List Char) : List Char := text.dropWhile isSpace

/-! ## Strings -/

/-- A part of the text and what is left of it. -/
abbrev Taken := List Char × List Char

/-- Puts a character in front of the part. -/
def Taken.cons (c : Char) (taken : Taken) : Taken := (c :: taken.1, taken.2)

/-- What an escape stands for: a character, or a number of hexadecimal digits. -/
inductive Escape where
  | char (c : Char)
  | digits (count : Nat)

/-- The escape that a character behind a backslash makes. -/
def escape? : Char → Option Escape
  | 'b' => some (.char '\x08')
  | 't' => some (.char '\t')
  | 'n' => some (.char '\n')
  | 'f' => some (.char '\x0c')
  | 'r' => some (.char '\r')
  | '"' => some (.char '"')
  | '\\' => some (.char '\\')
  | 'u' => some (.digits 4)
  | 'U' => some (.digits 8)
  | _ => none

/-- Where the reader of a string with escapes stands. -/
inductive Mode where
  | text
  | escape
  | digits (missing value : Nat)
  /-- Behind a backslash at the end of a line, over white space; a line break has to
      be among it. -/
  | trimming (seenBreak : Bool)

/-- Reads a string with escapes on one line, up to and with its closing quote. -/
def basic : Mode → List Char → Option Taken
  | _, [] => none
  | .text, c :: rest =>
    if c = '"' then some ([], rest)
    else if c = '\\' then basic .escape rest
    else if isAllowed c then (basic .text rest).map (.cons c)
    else none
  | .escape, c :: rest =>
    match escape? c with
    | some (.char d) => (basic .text rest).map (.cons d)
    | some (.digits count) => basic (.digits count 0) rest
    | none => none
  | .digits missing value, c :: rest =>
    match Text.hexValue? c with
    | none => none
    | some d =>
      if 1 < missing then basic (.digits (missing - 1) (16 * value + d)) rest
      else (Text.charOf? (16 * value + d)).bind fun e => (basic .text rest).map (.cons e)
  | .trimming _, _ :: _ => none

/-- Reads a string without escapes on one line, up to and with its closing quote. -/
def literal : List Char → Option Taken
  | [] => none
  | c :: rest =>
    if c = '\x27' then some ([], rest)
    else if isAllowed c then (literal rest).map (.cons c)
    else none

/-- What is left behind three closing quotes: one or two more belong to the string. -/
def afterQuotes (quote : Char) : List Char → Taken
  | [] => ([], [])
  | a :: [] => if a = quote then ([a], []) else ([], [a])
  | a :: b :: rest =>
    if a ≠ quote then ([], a :: b :: rest)
    else if b ≠ quote then ([a], b :: rest)
    else ([a, b], rest)

/-- Whether a text starts with two quotes. -/
def startsWithTwo (quote : Char) : List Char → Bool
  | a :: b :: _ => a = quote && b = quote
  | _ => false

/-- Whether a character ends a line: a line feed, or a carriage return before one. -/
def endsLine (c : Char) (rest : List Char) : Bool :=
  c = '\n' || (c = '\r' && rest.head? = some '\n')

/-- Reads a string with escapes over several lines, up to and with its closing quotes.
    Every line break counts as a line feed. -/
def multiBasic : Mode → List Char → Option Taken
  | _, [] => none
  | .escape, c :: rest =>
    if isSpace c then multiBasic (.trimming false) rest
    else if endsLine c rest then multiBasic (.trimming (c = '\n')) rest
    else
      match escape? c with
      | some (.char d) => (multiBasic .text rest).map (.cons d)
      | some (.digits count) => multiBasic (.digits count 0) rest
      | none => none
  | .digits missing value, c :: rest =>
    match Text.hexValue? c with
    | none => none
    | some d =>
      if 1 < missing then multiBasic (.digits (missing - 1) (16 * value + d)) rest
      else (Text.charOf? (16 * value + d)).bind fun e => (multiBasic .text rest).map (.cons e)
  | mode, c :: rest =>
    let (isTrimming, seenBreak) := match mode with
      | .trimming seen => (true, seen)
      | _ => (false, true)
    if isTrimming && (isSpace c || endsLine c rest) then
      multiBasic (.trimming (seenBreak || c = '\n')) rest
    else if !seenBreak then none
    else if c = '"' && startsWithTwo '"' rest then some (afterQuotes '"' (rest.drop 2))
    else if c = '\\' then multiBasic .escape rest
    else if c = '\n' || isAllowed c then (multiBasic .text rest).map (.cons c)
    else if endsLine c rest then multiBasic .text rest
    else none

/-- Reads a string without escapes over several lines, up to and with its closing
    quotes. -/
def multiLiteral : List Char → Option Taken
  | [] => none
  | c :: rest =>
    if c = '\x27' && startsWithTwo '\x27' rest then some (afterQuotes '\x27' (rest.drop 2))
    else if c = '\n' || isAllowed c then (multiLiteral rest).map (.cons c)
    else if endsLine c rest then multiLiteral rest
    else none

/-- Reads what a quote opens; of several lines, an empty first one does not count. -/
def quoted (quote : Char) (allowsLines : Bool) (text : List Char) : Option Taken :=
  let isBasic : Bool := quote = '"'
  if startsWithTwo quote text then
    if allowsLines then
      let rest := text.drop 2
      let body := (afterBreak? rest).getD rest
      if isBasic then multiBasic .text body else multiLiteral body
    else none
  else if isBasic then basic .text text
  else literal text

/-! ## Lines -/

/-- A value that a settings file may have. -/
inductive Value where
  | text (text : String)
  | bool (value : Bool)
deriving DecidableEq, Repr

/-- Reads a key. -/
def key? (text : List Char) : Option Taken :=
  match text with
  | [] => none
  | c :: rest =>
    if c = '"' || c = '\x27' then quoted c false rest
    else if isKeyChar c then some (text.takeWhile isKeyChar, text.dropWhile isKeyChar)
    else none

/-- Reads a value. -/
def value? (text : List Char) : Option (Value × List Char) :=
  match text with
  | [] => none
  | c :: rest =>
    if c = '"' || c = '\x27' then
      (quoted c true rest).map fun (chars, rest) => (.text (String.ofList chars), rest)
    else
      match Text.stripStart? "true".toList text, Text.stripStart? "false".toList text with
      | some rest, _ => some (.bool true, rest)
      | none, some rest => some (.bool false, rest)
      | none, none => none

/-- What follows the end of a line that has nothing but white space and a comment
    left. -/
def afterLine? (text : List Char) : Option (List Char) :=
  let text := skipSpace text
  let rest := if text.head? = some '#' then (text.drop 1).dropWhile isAllowed else text
  if rest.isEmpty then some [] else afterBreak? rest

/-- Reads a line with a key and a value. -/
def pair? (text : List Char) : Option ((String × Value) × List Char) := do
  let (name, rest) ← key? text
  match skipSpace rest with
  | '=' :: rest =>
    let (value, rest) ← value? (skipSpace rest)
    let rest ← afterLine? rest
    return ((String.ofList name, value), rest)
  | _ => none

/-- Reads a line: what it has, if anything, and what follows it. -/
def line? (text : List Char) : Option (Option (String × Value) × List Char) :=
  match afterLine? text with
  | some rest => some (none, rest)
  | none => (pair? (skipSpace text)).map fun (entry, rest) => (some entry, rest)

/-- The keys and values of a text. -/
def entries? (text : List Char) : Option (List (String × Value)) :=
  if text.isEmpty then some []
  else
    match line? text with
    | none => none
    | some (entry, rest) =>
      if _h : rest.length < text.length then
        (entries? rest).map fun others => entry.toList ++ others
      else none
termination_by text.length

end ApiDigest.Toml

namespace ApiDigest.Settings

/-- Settings with one more said by the file; a key may be there only once. -/
def add? (settings : Settings) : String × Toml.Value → Option Settings
  | ("input", .text input) =>
    if settings.input.isSome then none else some { settings with input }
  | ("output", .text output) =>
    if settings.output.isSome then none else some { settings with output }
  | ("pretty", .bool pretty) =>
    if settings.pretty.isSome then none else some { settings with pretty }
  | _ => none

/-- The settings that the text of a file spells; a byte order mark may stand before
    it. -/
def ofText? (text : String) : Option Settings := do
  let chars := if text.toList.head? = some '\ufeff' then text.toList.drop 1 else text.toList
  (← Toml.entries? chars).foldlM add? {}

end ApiDigest.Settings
