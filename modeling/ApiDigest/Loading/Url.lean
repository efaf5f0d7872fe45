/-
  Whether an address can be asked for.

  Between its scheme and the first slash, question mark or number sign, an address
  names a host and perhaps a number behind a colon.

  * `isIpv6` holds of the texts of 128-bit addresses: eight groups of up to four
    hexadecimal digits, the last two of them perhaps as four decimal numbers, and
    one run of zero groups perhaps left out;
  * `fault?` is what is wrong with an address.
-/
import ApiDigest.Loading.Failure
import ApiDigest.Text

namespace ApiDigest.Url

/-! ## Numeric hosts -/

/-- A group of up to four hexadecimal digits. -/
def isGroup (part : List Char) : Bool :=
  1 ≤ part.length && part.length ≤ 4 && part.all fun c => (Text.hexValue? c).isSome

/-- The value of decimal digits. -/
def decimal (digits : List Char) : Nat :=
  digits.foldl (fun n c => 10 * n + (c.toNat - '0'.toNat)) 0

/-- A decimal number below 256 without needless zeros. -/
def isOctet (part : List Char) : Bool :=
  part ≠ [] && part.all Char.isDigit && (part.length = 1 || part.head? ≠ some '0') &&
    decimal part < 256

/-- Four decimal numbers with points between them. -/
def isQuad (part : List Char) : Bool :=
  let numbers := Text.pieces (· = '.') part
  numbers.length = 4 && numbers.all isOctet

/-- How many groups the parts make; four decimal numbers at the end, where they are
    allowed, make two. -/
def groupCount? (allowsQuad : Bool) : List (List Char) → Option Nat
  | [] => some 0
  | [part] =>
    if isGroup part then some 1 else if allowsQuad && isQuad part then some 2 else none
  | part :: rest => if isGroup part then (groupCount? allowsQuad rest).map (· + 1) else none

/-- What stands before and behind the first pair of colons. -/
def atGap? : List Char → Option (List Char × List Char)
  | [] => none
  | [_] => none
  | a :: b :: rest =>
    if a = ':' && b = ':' then some ([], rest)
    else (atGap? (b :: rest)).map fun (before, after) => (a :: before, after)

/-- The parts between single colons. -/
def parts (text : List Char) : List (List Char) :=
  if text.isEmpty then [] else Text.pieces (· = ':') text

/-- Whether a text is a 128-bit address. -/
def isIpv6 (text : List Char) : Bool :=
  match atGap? text with
  | none => groupCount? true (parts text) = some 8
  | some (before, after) =>
    match groupCount? false (parts before), groupCount? true (parts after) with
    | some m, some n => m + n ≤ 7
    | _, _ => false

/-! ## Addresses -/

/-- Blanks and control characters, which may stand around an address. -/
def isPadding (c : Char) : Bool := c.toNat ≤ 0x20

/-- Characters that count for nothing inside an address. -/
def isIgnored (c : Char) : Bool := c = '\t' || c = '\n' || c = '\r'

/-- A slash, in either direction. -/
def isSlash (c : Char) : Bool := c = '/' || c = '\\'

/-- Where the part about the host ends. -/
def endsAuthority (c : Char) : Bool := isSlash c || c = '?' || c = '#'

/-- The part about the host: what stands behind the scheme and its slashes. -/
def authority (url : String) : List Char :=
  let text := (Text.trimEnd isPadding url.toList).filter fun c => !isIgnored c
  (((text.dropWhile (· ≠ ':')).drop 1).dropWhile isSlash).takeWhile fun c => !endsAuthority c

/-- The part about the host without the name of a user. -/
def hostPart (url : String) : List Char :=
  ((authority url).reverse.takeWhile (· ≠ '@')).reverse

/-- The host, and what stands from the colon behind it on; colons between brackets
    belong to the host. -/
def splitHost (inside : Bool) : List Char → List Char × List Char
  | [] => ([], [])
  | c :: rest =>
    if c = ':' && !inside then ([], c :: rest)
    else
      let inside := if c = '[' then true else if c = ']' then false else inside
      let (host, rest) := splitHost inside rest
      (c :: host, rest)

/-- Whether a host that starts with a bracket is a 128-bit address in brackets. -/
def isBracketed (host : List Char) : Bool :=
  host.getLast? = some ']' && isIpv6 (host.drop 1).dropLast

/-- What is wrong with an address. -/
def fault? (url : String) : Option UrlFault :=
  let (host, rest) := splitHost false (hostPart url)
  let digits := rest.drop 1
  if host.isEmpty then some .emptyHost
  else if host.head? = some '[' && !isBracketed host then some .invalidIpv6
  else if !digits.all Char.isDigit || 65535 < decimal digits then some .invalidPort
  else none

end ApiDigest.Url
