/-
  The text of YAML scalars.

  Each reader gets the cells after the indicator and gives the text of the scalar
  together with the number of cells that it takes.

  * `Folding` holds the text so far and the blanks and line breaks after it: a
    single line break becomes a blank, of several the first is dropped;
  * `plain` reads unquoted scalars, `quoted` quoted ones, and `block` those that
    keep their lines, literally or folded.
-/
import ApiDigest.Text
import ApiDigest.Yaml.Cell

namespace ApiDigest.Yaml

/-! ## Folding lines -/

/-- Text with the blanks or line breaks after it, each in reverse. -/
structure Folding where
  text : List Char
  blanks : List Char
  /-- Whether the line was ended; blanks count for nothing from then on. -/
  broken : Bool
  firstBreak : Option Char
  moreBreaks : List Char

namespace Folding

/-- No text yet. -/
def empty : Folding := ⟨[], [], false, none, []⟩

/-- The text, reversed, with what stands for the blanks or line breaks after it. -/
def joined (f : Folding) : List Char :=
  if !f.broken then f.blanks ++ f.text
  else if f.firstBreak = some '\n' then
    if f.moreBreaks.isEmpty then ' ' :: f.text else f.moreBreaks ++ f.text
  else f.moreBreaks ++ (f.firstBreak.toList ++ f.text)

/-- Whether blanks or line breaks follow the text. -/
def isPending (f : Folding) : Bool := f.broken || !f.blanks.isEmpty

/-- Adds a blank. -/
def addBlank (f : Folding) (c : Char) : Folding :=
  if f.broken then f else { f with blanks := c :: f.blanks }

/-- Adds a line break. -/
def addBreak (f : Folding) (c : Char) : Folding :=
  if f.broken then { f with moreBreaks := c :: f.moreBreaks }
  else { f with blanks := [], broken := true, firstBreak := some c }

/-- Adds a character of the text. -/
def push (f : Folding) (c : Char) : Folding := ⟨c :: f.joined, [], false, none, []⟩

/-- Ends the line without a line break. -/
def breakOff (f : Folding) : Folding := ⟨f.joined, [], true, none, []⟩

end Folding

/-! ## Plain scalars -/

/-- A scalar's text, the number of its cells, and whether it ended with a line. -/
structure Scanned where
  text : String
  used : Nat
  endsLine : Bool

/-- The characters that structure a flow collection. -/
def isFlowIndicator (c : Char) : Bool :=
  c = ',' || c = '[' || c = ']' || c = '{' || c = '}'

/-- Reads a plain scalar.  It ends before a colon with a space behind it, a comment,
    a mark between documents, a line that is not indented enough, and inside a flow
    collection before its indicators. -/
def plain (inFlow : Bool) (minColumn : Nat) (f : Folding) (used : Nat) :
    List Cell → Option Scanned
  | [] => some ⟨String.ofList f.text.reverse, used, f.broken⟩
  | c :: rest =>
    let done : Option Scanned := some ⟨String.ofList f.text.reverse, used, f.broken⟩
    if isBlank c.char then
      if f.broken && c.char = '\t' && c.column < minColumn then none
      else plain inFlow minColumn (f.addBlank c.char) (used + 1) rest
    else if isBreak c.char then plain inFlow minColumn (f.addBreak c.char) (used + 1) rest
    else if f.isPending &&
        ((!inFlow && c.column < minColumn) || c.char = '#' || isDocumentMark (c :: rest)) then
      done
    else if inFlow && c.char = ':' && nextIs (fun d => isFlowIndicator d || d = '?') rest then none
    else if (c.char = ':' && atSpace rest) || (inFlow && isFlowIndicator c.char) then done
    else plain inFlow minColumn (f.push c.char) (used + 1) rest

/-! ## Quoted scalars -/

/-- What an escape stands for: a character, or a number of hexadecimal digits. -/
inductive Escape where
  | char (c : Char)
  | digits (count : Nat)

/-- The escape that a character behind a backslash makes. -/
def escape? (c : Char) : Option Escape :=
  match c with
  | '0' => some (.char '\x00')
  | 'a' => some (.char '\x07')
  | 'b' => some (.char '\x08')
  | 't' => some (.char '\t')
  | '\t' => some (.char '\t')
  | 'n' => some (.char '\n')
  | 'v' => some (.char '\x0b')
  | 'f' => some (.char '\x0c')
  | 'r' => some (.char '\r')
  | 'e' => some (.char '\x1b')
  | ' ' => some (.char ' ')
  | '"' => some (.char '"')
  | '/' => some (.char '/')
  | '\\' => some (.char '\\')
  | 'N' => some (.char '\u0085')
  | '_' => some (.char '\u00a0')
  | 'L' => some (.char '\u2028')
  | 'P' => some (.char '\u2029')
  | 'x' => some (.digits 2)
  | 'u' => some (.digits 4)
  | 'U' => some (.digits 8)
  | _ => none

/-- Where the reader of a quoted scalar stands. -/
inductive QuoteMode where
  | text
  | escape
  | digits (missing value : Nat)

/-- Reads a quoted scalar up to and with its closing quote. -/
def quoted (single : Bool) : QuoteMode → Folding → Nat → List Cell → Option Scanned
  | _, _, _, [] => none
  | .text, f, used, c :: rest =>
    if isBlank c.char then quoted single .text (f.addBlank c.char) (used + 1) rest
    else if isBreak c.char then quoted single .text (f.addBreak c.char) (used + 1) rest
    else if isDocumentMark (c :: rest) then none
    else if single then
      if c.char = '\x27' then
        match rest with
        | d :: rest =>
          if d.char = '\x27' then quoted single .text (f.push '\x27') (used + 2) rest
          else some ⟨String.ofList f.joined.reverse, used + 1, false⟩
        | [] => some ⟨String.ofList f.joined.reverse, used + 1, false⟩
      else quoted single .text (f.push c.char) (used + 1) rest
    else if c.char = '"' then some ⟨String.ofList f.joined.reverse, used + 1, false⟩
    else if c.char = '\\' then quoted single .escape f (used + 1) rest
    else quoted single .text (f.push c.char) (used + 1) rest
  | .escape, f, used, c :: rest =>
    if isBreak c.char then quoted single .text f.breakOff (used + 1) rest
    else
      match escape? c.char with
      | none => none
      | some (.char d) => quoted single .text (f.push d) (used + 1) rest
      | some (.digits count) => quoted single (.digits count 0) f (used + 1) rest
  | .digits missing value, f, used, c :: rest =>
    match Text.hexValue? c.char with
    | none => none
    | some d =>
      if missing ≤ 1 then
        match Text.charOf? (16 * value + d) with
        | none => none
        | some e => quoted single .text (f.push e) (used + 1) rest
      else quoted single (.digits (missing - 1) (16 * value + d)) f (used + 1) rest

/-! ## Block scalars -/

/-- Which line breaks at the end of a block scalar stay. -/
inductive Chomping where
  /-- None. -/
  | strip
  /-- The one that ends the last line. -/
  | clip
  /-- All. -/
  | keep

/-- The chomping that a sign stands for. -/
def chomping? (c : Char) : Option Chomping :=
  if c = '+' then some .keep else if c = '-' then some .strip else none

/-- The value of an indentation digit. -/
def indentDigit? (c : Char) : Option Nat :=
  if c.isDigit then some (c.toNat - '0'.toNat) else none

/-- The sign and the digit behind the indicator, in either order. -/
def blockSigns : List Cell → Chomping × Option Nat × List Cell
  | [] => (.clip, none, [])
  | c :: rest =>
    match chomping? c.char with
    | some chomping =>
      match rest with
      | [] => (chomping, none, [])
      | d :: after =>
        match indentDigit? d.char with
        | some n => (chomping, some n, after)
        | none => (chomping, none, rest)
    | none =>
      match indentDigit? c.char with
      | some n =>
        match rest with
        | [] => (.clip, some n, [])
        | d :: after =>
          match chomping? d.char with
          | some chomping => (chomping, some n, after)
          | none => (.clip, some n, rest)
      | none => (.clip, none, c :: rest)

/-- The cells after blanks, a comment and the end of a line; nothing if anything
    else stands there. -/
def endLine? (cells : List Cell) : Option (List Cell) :=
  let (_, cells) := spanChars isBlank cells
  let cells := if nextIs (· = '#') cells then (spanChars (!isBreak ·) cells).2 else cells
  match cells with
  | [] => some []
  | c :: rest => if isBreak c.char then some rest else none

/-- A block scalar while it is read; texts and breaks in reverse. -/
structure BlockState where
  text : List Char
  /-- The indentation of the lines; zero as long as it is unknown. -/
  indent : Nat
  /-- The widest line of blanks before the first line. -/
  widest : Nat
  lineBreak : Option Char
  moreBreaks : List Char
  /-- Whether the last line started with a blank. -/
  indented : Bool
  inLine : Bool

/-- The text before a new line that starts with a blank or not. -/
def BlockState.joined (folded : Bool) (s : BlockState) (blank : Bool) : List Char :=
  if folded && s.lineBreak = some '\n' && !s.indented && !blank then
    if s.moreBreaks.isEmpty then ' ' :: s.text else s.moreBreaks ++ s.text
  else s.moreBreaks ++ (s.lineBreak.toList ++ s.text)

/-- Reads the lines of a block scalar, whose indentation is at least `least`. -/
def blockLines (folded : Bool) (least : Nat) (s : BlockState) (used : Nat) :
    List Cell → Option (BlockState × Nat)
  | [] => some (s, used)
  | c :: rest =>
    if s.inLine then
      if isBreak c.char then
        blockLines folded least { s with inLine := false, lineBreak := some c.char } (used + 1) rest
      else blockLines folded least { s with text := c.char :: s.text } (used + 1) rest
    else
      let outside := s.indent = 0 || c.column < s.indent
      if outside && c.char = ' ' then blockLines folded least s (used + 1) rest
      else if outside && c.char = '\t' then none
      else
        let widest := max s.widest c.column
        if isBreak c.char then
          blockLines folded least { s with widest, moreBreaks := c.char :: s.moreBreaks }
            (used + 1) rest
        else
          let indent := if s.indent = 0 then max widest least else s.indent
          if c.column ≠ indent then some (s, used)
          else
            let blank := isBlank c.char
            blockLines folded least
              { s with
                text := c.char :: s.joined folded blank
                indent
                lineBreak := none
                moreBreaks := []
                indented := blank
                inLine := true }
              (used + 1) rest

/-- The text of a block scalar that was read, without the line breaks that do not
    stay. -/
def BlockState.finish (chomping : Chomping) (s : BlockState) : String :=
  let clipped := s.lineBreak.toList ++ s.text
  String.ofList <| List.reverse <| match chomping with
    | .strip => s.text
    | .clip => clipped
    | .keep => s.moreBreaks ++ clipped

/-- Reads a block scalar inside collections whose entries start at least at a
    column; there may be no collection. -/
def block (folded : Bool) (column : Option Nat) (cells : List Cell) : Option Scanned :=
  let (chomping, digit, after) := blockSigns cells
  if digit = some 0 then none
  else
    match endLine? after with
    | none => none
    | some lines =>
      let least := column.elim 1 (· + 1)
      let indent := digit.elim 0 fun n => column.elim n (· + n)
      match blockLines folded least ⟨[], indent, 0, none, [], false, false⟩
          (cells.length - lines.length) lines with
      | none => none
      | some (s, used) => some ⟨s.finish chomping, used, false⟩

end ApiDigest.Yaml
