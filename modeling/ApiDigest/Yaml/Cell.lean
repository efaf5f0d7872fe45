/-
  YAML text, laid out.

  A text is read as a list of cells: characters together with where they stand.
  Every kind of line break but two becomes a line feed; the line and paragraph
  separators stay, because they are kept when lines are folded.

  * `layout` gives the cells of a text;
  * `isAllowed` holds of the characters that may occur at all.
-/

namespace ApiDigest.Yaml

/-! ## Characters -/

/-- A character that may occur in a text. -/
def isAllowed (c : Char) : Bool :=
  let n := c.toNat
  n = 0x9 || n = 0xA || n = 0xD || (0x20 ≤ n && n ≤ 0x7E) || n = 0x85 ||
    (0xA0 ≤ n && n ≤ 0xFFFD) || 0x10000 ≤ n

/-- A blank inside a line. -/
def isBlank (c : Char) : Bool := c = ' ' || c = '\t'

/-- A line break of a laid out text. -/
def isBreak (c : Char) : Bool := c = '\n' || c = '\u2028' || c = '\u2029'

/-- A blank or a line break. -/
def isSpace (c : Char) : Bool := isBlank c || isBreak c

/-- A character of an anchor's name. -/
def isNameChar (c : Char) : Bool := c.isAlphanum || c = '_' || c = '-'

/-- A byte order mark, which may stand at the very beginning. -/
def isByteOrderMark (c : Char) : Bool := c = '\uFEFF'

/-! ## Cells -/

/-- A character and where it stands: how many characters are before it, on which
    line, and how many on that line. -/
structure Cell where
  char : Char
  index : Nat
  line : Nat
  column : Nat

/-- The cells of a text from a position on. -/
def layoutFrom (index line column : Nat) : List Char → List Cell
  | [] => []
  | '\r' :: '\n' :: rest => ⟨'\n', index, line, column⟩ :: layoutFrom (index + 2) (line + 1) 0 rest
  | c :: rest =>
    let c := if c = '\r' || c = '\u0085' then '\n' else c
    let next :=
      if isBreak c then layoutFrom (index + 1) (line + 1) 0 rest
      else layoutFrom (index + 1) line (column + 1) rest
    ⟨c, index, line, column⟩ :: next

/-- The cells of a text. -/
def layout (text : List Char) : List Cell := layoutFrom 0 0 0 text

/-! ## Looking ahead -/

/-- Whether the next character is of a class; the end of the text is not. -/
def nextIs (p : Char → Bool) : List Cell → Bool
  | [] => false
  | c :: _ => p c.char

/-- Whether a blank, a line break or the end of the text comes next. -/
def atSpace : List Cell → Bool
  | [] => true
  | c :: _ => isSpace c.char

/-- The longest beginning of a class, and what follows. -/
def spanChars (p : Char → Bool) : List Cell → List Char × List Cell
  | [] => ([], [])
  | c :: rest =>
    if p c.char then let (cs, after) := spanChars p rest; (c.char :: cs, after) else ([], c :: rest)

/-- Whether a line starts with three of a character and then a space: the marks
    between documents. -/
def isMark (mark : Char) : List Cell → Bool
  | a :: b :: c :: rest =>
    a.column = 0 && a.char = mark && b.char = mark && c.char = mark && atSpace rest
  | _ => false

/-- Whether a mark between documents comes next. -/
def isDocumentMark (cells : List Cell) : Bool := isMark '-' cells || isMark '.' cells

end ApiDigest.Yaml
