/-
  The tokens of YAML text.

  The tokens say where collections start and end, which in block collections only
  the indentation tells.  A key of a mapping often shows itself only by the colon
  after it; the tokens that start the key, and perhaps the mapping, are then put
  where the key began.

  * `Scanner` is the state between tokens: the open block collections, the number
    of open flow collections, and on each level the place where a key may have
    begun;
  * `tokens?` gives the tokens of a text; a text may also be malformed.
-/
import ApiDigest.Yaml.ScalarText

namespace ApiDigest.Yaml

/-! ## Tokens -/

/-- A token of YAML text. -/
inductive Token where
  | version (major minor : Nat)
  | tagHandle (handle start : String)
  | documentStart
  | documentEnd
  | blockSequenceStart
  | blockMappingStart
  | blockEnd
  | flowSequenceStart
  | flowSequenceEnd
  | flowMappingStart
  | flowMappingEnd
  | blockEntry
  | flowEntry
  | key
  | value
  | alias (name : String)
  | anchor (name : String)
  | tag (handle rest : String)
  | scalar (text : String) (isPlain : Bool)
  | streamEnd
deriving DecidableEq

/-! ## Directives, anchors and tags -/

/-- A token and the number of its cells. -/
abbrev Taken := Token × Nat

/-- A character of a tag. -/
def isTagChar (verbatim : Bool) (c : Char) : Bool :=
  isNameChar c || ";/?:@&=+$.%!~*()".toList.contains c || c = '\x27' ||
    (verbatim && (c = ',' || c = '[' || c = ']'))

/-- Reads the escapes of a tag, a percent sign and two hexadecimal digits each, as
    bytes; other characters stand for themselves. -/
def tagBytes? : List Char → Option (List UInt8)
  | [] => some []
  | '%' :: a :: b :: rest =>
    match Text.hexValue? a, Text.hexValue? b with
    | some x, some y => (tagBytes? rest).map (UInt8.ofNat (16 * x + y) :: ·)
    | _, _ => none
  | '%' :: _ => none
  | c :: rest => (tagBytes? rest).map (UInt8.ofNat c.toNat :: ·)

/-- Whether bytes are whole groups, each a leading byte and as many trailing ones as
    it asks for. -/
def areGrouped : Nat → List UInt8 → Bool
  | missing, [] => missing = 0
  | 0, byte :: rest =>
    if byte < 0x80 then areGrouped 0 rest
    else if byte &&& 0xE0 = 0xC0 then areGrouped 1 rest
    else if byte &&& 0xF0 = 0xE0 then areGrouped 2 rest
    else if byte &&& 0xF8 = 0xF0 then areGrouped 3 rest
    else false
  | missing + 1, byte :: rest => byte &&& 0xC0 = 0x80 && areGrouped missing rest

/-- The text of a tag; what is no text after all is read as a replacement character. -/
def tagText? (chars : List Char) : Option String :=
  match tagBytes? chars with
  | none => none
  | some bytes =>
    if areGrouped 0 bytes then some ((String.fromUTF8? ⟨bytes.toArray⟩).getD "\uFFFD") else none

/-- A digit sequence of at most nine digits, and what follows. -/
def versionNumber? (cells : List Cell) : Option (Nat × List Cell) :=
  let (digits, after) := spanChars Char.isDigit cells
  if digits.isEmpty || 9 < digits.length then none
  else some (digits.foldl (fun n c => 10 * n + (c.toNat - '0'.toNat)) 0, after)

/-- The value of a version directive, and what follows. -/
def versionValue? (cells : List Cell) : Option (Token × List Cell) :=
  match versionNumber? (spanChars isBlank cells).2 with
  | some (major, dot :: after) =>
    if dot.char = '.' then
      (versionNumber? after).map fun (minor, after) => (.version major minor, after)
    else none
  | _ => none

/-- The value of a tag directive, and what follows. -/
def tagValue? (cells : List Cell) : Option (Token × List Cell) :=
  match (spanChars isBlank cells).2 with
  | [] => none
  | bang :: after =>
    if bang.char ≠ '!' then none
    else
      let (name, after) := spanChars isNameChar after
      let closed := nextIs (· = '!') after
      let after := if closed then after.drop 1 else after
      if (!closed && !name.isEmpty) || !nextIs isBlank after then none
      else
        let (uri, after) := spanChars (isTagChar true) (spanChars isBlank after).2
        if uri.isEmpty || !atSpace after then none
        else
          let handle := '!' :: name ++ if closed then ['!'] else []
          (tagText? uri).map fun start => (.tagHandle (String.ofList handle) start, after)

/-- A directive, from behind its percent sign to the end of its line. -/
def directive? (cells : List Cell) : Option (Token × List Cell) :=
  let (name, after) := spanChars isNameChar cells
  let value :=
    if !atSpace after then none
    else if name = "YAML".toList then versionValue? after
    else if name = "TAG".toList then tagValue? after
    else none
  value.bind fun (token, after) => (endLine? after).map fun rest => (token, rest)

/-- The name of an anchor or alias, from behind its sign. -/
def anchorName? (cells : List Cell) : Option String :=
  let (name, after) := spanChars isNameChar cells
  if name.isEmpty then none
  else if atSpace after || nextIs (fun c => "?:,]\x7d%@\x60".toList.contains c) after then
    some (String.ofList name)
  else none

/-- A tag, from behind its exclamation mark, and the number of its cells. -/
def tag? (inFlow : Bool) (cells : List Cell) : Option Taken :=
  let found : Option (Token × Nat × List Cell) :=
    if nextIs (· = '<') cells then
      let (uri, after) := spanChars (isTagChar true) (cells.drop 1)
      if uri.isEmpty || !nextIs (· = '>') after then none
      else (tagText? uri).map fun rest => (.tag "" rest, uri.length + 3, after.drop 1)
    else
      let (name, after) := spanChars isNameChar cells
      if nextIs (· = '!') after then
        let (uri, rest) := spanChars (isTagChar false) (after.drop 1)
        if uri.isEmpty then none
        else
          (tagText? uri).map fun text =>
            (.tag (String.ofList ('!' :: name ++ ['!'])) text, name.length + uri.length + 2, rest)
      else
        let (uri, rest) := spanChars (isTagChar false) after
        let used := name.length + uri.length + 1
        if used = 1 then some (.tag "" "!", 1, rest)
        else (tagText? (name ++ uri)).map fun text => (.tag "!" text, used, rest)
  match found with
  | none => none
  | some (token, used, after) =>
    if atSpace after || (inFlow && nextIs (· = ',') after) then some (token, used) else none

/-! ## The state of the scanner -/

/-- A place where a key may have begun. -/
structure PossibleKey where
  /-- How many tokens are before it. -/
  before : Nat
  index : Nat
  line : Nat
  column : Nat
  /-- Whether nothing but a key may stand here. -/
  required : Bool

/-- The state between two tokens. -/
structure Scanner where
  /-- The tokens so far, in reverse. -/
  out : List Token
  /-- How many they are. -/
  count : Nat
  /-- The columns of the open block collections, innermost first. -/
  columns : List Nat
  /-- The number of open flow collections. -/
  flow : Nat
  /-- Where a key may have begun, innermost level first. -/
  keys : List (Option PossibleKey)
  /-- Whether a key may begin here. -/
  keyAllowed : Bool

namespace Scanner

/-- The state at the beginning of a text. -/
def start : Scanner := ⟨[], 0, [], 0, [none], true⟩

/-- Whether a flow collection is open. -/
def inFlow (s : Scanner) : Bool := 0 < s.flow

/-- Adds a token. -/
def emit (s : Scanner) (token : Token) : Scanner :=
  { s with out := token :: s.out, count := s.count + 1 }

/-- Puts tokens, given in reverse, behind the first `before` ones. -/
def insertAt (s : Scanner) (before : Nat) (tokens : List Token) : Scanner :=
  let later := s.count - before
  { s with
    out := s.out.take later ++ (tokens ++ s.out.drop later)
    count := s.count + tokens.length }

/-- Says whether a key may begin next. -/
def allowKey (s : Scanner) (allowed : Bool) : Scanner := { s with keyAllowed := allowed }

/-! ### Possible keys -/

/-- Whether a possible key is too far away to be one: on an earlier line, or more
    than 1024 characters back. -/
def isStale (c : Cell) (key : PossibleKey) : Bool := key.line < c.line || key.index + 1024 < c.index

/-- Drops the possible keys that are too far away; one that is required must not be. -/
def dropStale? (s : Scanner) (c : Cell) : Option Scanner :=
  if s.keys.any fun key => key.any fun key => key.required && isStale c key then none
  else some { s with keys := s.keys.map fun key => key.filter fun key => !isStale c key }

/-- Drops the possible key of the innermost level; one that is required must not be. -/
def dropKey? (s : Scanner) : Option Scanner :=
  match s.keys with
  | some key :: rest => if key.required then none else some { s with keys := none :: rest }
  | _ => some s

/-- Notes that a key may begin here. -/
def noteKey? (s : Scanner) (c : Cell) : Option Scanner :=
  if s.keyAllowed then
    let required := !s.inFlow && s.columns.head? = some c.column
    s.dropKey?.map fun s =>
      { s with keys := some ⟨s.count, c.index, c.line, c.column, required⟩ :: s.keys.drop 1 }
  else some s

/-! ### Block collections -/

/-- Whether a column is to the right of all open block collections. -/
def isDeeper (s : Scanner) (column : Nat) : Bool :=
  !s.inFlow && s.columns.head?.all (· < column)

/-- Opens a block collection unless one is open at the column. -/
def openBlock (s : Scanner) (column : Nat) (token : Token) : Scanner :=
  if s.isDeeper column then { s.emit token with columns := column :: s.columns } else s

/-- The open block collections from a column on to the left, and one end for each
    of the others. -/
def closeFrom (column : Nat) : List Nat → List Nat × Nat
  | [] => ([], 0)
  | c :: rest =>
    if column < c then let (left, n) := closeFrom column rest; (left, n + 1) else (c :: rest, 0)

/-- Closes the block collections to the right of a column. -/
def closeTo (s : Scanner) (column : Nat) : Scanner :=
  if s.inFlow then s
  else
    let (left, closed) := closeFrom column s.columns
    { s with
      out := List.replicate closed .blockEnd ++ s.out
      count := s.count + closed
      columns := left }

/-- Closes all block collections. -/
def closeAll (s : Scanner) : Scanner :=
  if s.inFlow then s
  else
    { s with
      out := List.replicate s.columns.length .blockEnd ++ s.out
      count := s.count + s.columns.length
      columns := [] }

/-! ### One token -/

/-- A directive or a mark between documents. -/
def documentToken? (s : Scanner) (token : Token) : Option Scanner :=
  s.closeAll.dropKey?.map fun s => (s.emit token).allowKey false

/-- The start of a flow collection. -/
def openFlow? (s : Scanner) (c : Cell) (token : Token) : Option Scanner :=
  (s.noteKey? c).map fun s =>
    ({ s.emit token with flow := s.flow + 1, keys := none :: s.keys }).allowKey true

/-- The end of a flow collection. -/
def closeFlow? (s : Scanner) (token : Token) : Option Scanner :=
  s.dropKey?.map fun s =>
    let s := s.emit token
    let s := if s.inFlow then { s with flow := s.flow - 1, keys := s.keys.drop 1 } else s
    s.allowKey false

/-- A comma in a flow collection. -/
def flowEntry? (s : Scanner) : Option Scanner :=
  s.dropKey?.map fun s => (s.emit .flowEntry).allowKey true

/-- The dash of an item. -/
def blockEntry? (s : Scanner) (c : Cell) : Option Scanner :=
  if !s.inFlow && !s.keyAllowed then none
  else
    (s.openBlock c.column .blockSequenceStart).dropKey?.map fun s =>
      (s.emit .blockEntry).allowKey true

/-- The question mark of a key. -/
def key? (s : Scanner) (c : Cell) : Option Scanner :=
  if !s.inFlow && !s.keyAllowed then none
  else
    (s.openBlock c.column .blockMappingStart).dropKey?.map fun s =>
      (s.emit .key).allowKey (!s.inFlow)

/-- The colon of a value; it shows what may be a key to be one. -/
def value? (s : Scanner) (c : Cell) : Option Scanner :=
  match s.keys with
  | some key :: rest =>
    let opens := s.isDeeper key.column
    let s := s.insertAt key.before (if opens then [.key, .blockMappingStart] else [.key])
    let columns := if opens then key.column :: s.columns else s.columns
    some (({ s with keys := none :: rest, columns }.emit .value).allowKey false)
  | _ =>
    if !s.inFlow && !s.keyAllowed then none
    else
      let s := s.openBlock c.column .blockMappingStart
      some ((s.emit .value).allowKey (!s.inFlow))

/-- A token that a key may begin with. -/
def keyToken? (s : Scanner) (c : Cell) (token : Token) : Option Scanner :=
  (s.noteKey? c).map fun s => (s.emit token).allowKey false

/-- A block scalar. -/
def blockScalar? (s : Scanner) (scanned : Scanned) : Option Scanner :=
  s.dropKey?.map fun s => (s.emit (.scalar scanned.text false)).allowKey true

/-- A plain scalar; after its last line a new key may begin. -/
def plainScalar? (s : Scanner) (c : Cell) (scanned : Scanned) : Option Scanner :=
  (s.keyToken? c (.scalar scanned.text true)).map fun s => s.allowKey scanned.endsLine

/-- A character that no plain scalar starts with, unless more follows it. -/
def isIndicator (c : Char) : Bool := "-?:,[]\x7b\x7d#&*!|>\x27\"%@\x60".toList.contains c

/-- Whether a plain scalar starts here. -/
def startsPlain (s : Scanner) (c : Cell) (rest : List Cell) : Bool :=
  !(isSpace c.char || isIndicator c.char) || (c.char = '-' && !nextIs isBlank rest) ||
    (!s.inFlow && (c.char = '?' || c.char = ':') && !atSpace rest)

/-- The token that starts at a cell, and the number of its cells. -/
def token? (s : Scanner) (c : Cell) (rest : List Cell) : Option (Scanner × Nat) :=
  let one (s : Option Scanner) : Option (Scanner × Nat) := s.map fun s => (s, 1)
  let isAlone := atSpace rest
  if c.column = 0 && c.char = '%' then
    (directive? rest).bind fun (token, after) =>
      (s.documentToken? token).map fun s => (s, rest.length + 1 - after.length)
  else if isMark '-' (c :: rest) then (s.documentToken? .documentStart).map fun s => (s, 3)
  else if isMark '.' (c :: rest) then (s.documentToken? .documentEnd).map fun s => (s, 3)
  else if c.char = '[' then one (s.openFlow? c .flowSequenceStart)
  else if c.char = '{' then one (s.openFlow? c .flowMappingStart)
  else if c.char = ']' then one (s.closeFlow? .flowSequenceEnd)
  else if c.char = '}' then one (s.closeFlow? .flowMappingEnd)
  else if c.char = ',' then one s.flowEntry?
  else if c.char = '-' && isAlone then one (s.blockEntry? c)
  else if c.char = '?' && (s.inFlow || isAlone) then one (s.key? c)
  else if c.char = ':' && (s.inFlow || isAlone) then one (s.value? c)
  else if c.char = '*' then
    (anchorName? rest).bind fun name =>
      (s.keyToken? c (.alias name)).map fun s => (s, name.length + 1)
  else if c.char = '&' then
    (anchorName? rest).bind fun name =>
      (s.keyToken? c (.anchor name)).map fun s => (s, name.length + 1)
  else if c.char = '!' then
    (tag? s.inFlow rest).bind fun (token, used) => (s.keyToken? c token).map fun s => (s, used)
  else if (c.char = '|' || c.char = '>') && !s.inFlow then
    (block (c.char = '>') s.columns.head? rest).bind fun scanned =>
      (s.blockScalar? scanned).map fun s => (s, scanned.used + 1)
  else if c.char = '\x27' || c.char = '"' then
    (quoted (c.char = '\x27') .text .empty 0 rest).bind fun scanned =>
      (s.keyToken? c (.scalar scanned.text false)).map fun s => (s, scanned.used + 1)
  else if s.startsPlain c rest then
    (plain s.inFlow (s.columns.head?.elim 0 (· + 1)) .empty 0 (c :: rest)).bind fun scanned =>
      (s.plainScalar? c scanned).map fun s => (s, scanned.used)
  else none

/-- What starts at a cell, and the number of its cells: a blank, a line break, a
    comment or a token. -/
def step? (s : Scanner) (c : Cell) (rest : List Cell) : Option (Scanner × Nat) :=
  if c.index = 0 && isByteOrderMark c.char then some (s, 1)
  else if c.char = ' ' || (c.char = '\t' && (s.inFlow || !s.keyAllowed)) then some (s, 1)
  else if isBreak c.char then some (if s.inFlow then s else s.allowKey true, 1)
  else if c.char = '#' then some (s, (spanChars (!isBreak ·) rest).1.length + 1)
  else (s.dropStale? c).bind fun s => (s.closeTo c.column).token? c rest

/-- The tokens at the end of the text. -/
def finish? (s : Scanner) : Option (List Token) :=
  s.closeAll.dropKey?.map fun s => (.streamEnd :: s.out).reverse

/-- Reads cells, the first `skip` of which belong to what was read already. -/
def run? (s : Scanner) (skip : Nat) : List Cell → Option (List Token)
  | [] => s.finish?
  | c :: rest =>
    match skip with
    | k + 1 => run? s k rest
    | 0 =>
      match s.step? c rest with
      | none => none
      | some (s, used) => run? s (used - 1) rest

end Scanner

/-- The tokens of a text; nothing if the text is malformed. -/
def tokens? (text : String) : Option (List Token) :=
  let chars := text.toList
  if chars.all isAllowed then Scanner.start.run? 0 (layout chars) else none

end ApiDigest.Yaml
