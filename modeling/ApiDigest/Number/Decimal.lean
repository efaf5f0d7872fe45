/-
  Doubles as decimal text.

  * `Binary64.shortest` finds, of the decimals that read back as a given double,
    one with the fewest digits, and of those the nearest to it;
  * `Decimal.Style` holds what a format decides: where positional notation is
    used and how an exponent is signed;
  * `Binary64.render` joins the two.
-/
import ApiDigest.Number.Binary64

namespace ApiDigest

/-- The decimal `digits * 10 ^ exponent`. -/
structure Decimal where
  digits : Nat
  exponent : Int
deriving DecidableEq, Repr

/-! ## The fewest digits that read back -/

namespace Binary64

/-- The magnitudes that round to a double, in quarters of its last bit: the lower
    end, the double itself, the upper end.  The gap below a power of two is half
    as wide as the one above it. -/
def interval (x : Binary64) : Nat × Nat × Nat :=
  let m := 4 * x.significand
  let below := if x.significand = leadingWeight && -1074 < x.exponent then 1 else 2
  (m - below, m, m + 2)

/-- Whether a ratio is at least `10 ^ e`. -/
def reachesPower10 (num den : Nat) (e : Int) : Bool :=
  if 0 ≤ e then den * Nat.pow 10 e.toNat ≤ num else den ≤ num * Nat.pow 10 (-e).toNat

/-- The integer part of the decimal logarithm of a positive ratio: the binary
    logarithm times `log 2`, mended by at most one in either direction. -/
def floorLog10 (num den : Nat) : Int :=
  let guess : Int := (floorLog2 num den * 30103) / 100000
  if !reachesPower10 num den guess then guess - 1
  else if reachesPower10 num den (guess + 1) then guess + 1
  else guess

/-- The better of the two neighbours of a finite positive double among the
    multiples of `10 ^ e`, if one of them reads back; a tie goes to the even one. -/
def neighbour? (x : Binary64) (e : Int) : Option Nat :=
  let (low, mid, high) := x.interval
  -- all values below are in units of `10 ^ e`, with a common denominator
  let (unit, den) := shiftRatio 1 1 (2 - x.exponent)
  let (unit, den) :=
    if 0 ≤ e then (unit, den * Nat.pow 10 e.toNat) else (unit * Nat.pow 10 (-e).toNat, den)
  let closed := x.significand % 2 = 0
  let reads (a : Nat) : Bool :=
    if closed then low * unit ≤ a * den && a * den ≤ high * unit
    else low * unit < a * den && a * den < high * unit
  let lower := mid * unit / den
  let upper := lower + 1
  let toLower := mid * unit - lower * den
  let toUpper := upper * den - mid * unit
  match reads lower && 0 < lower, reads upper with
  | true, true =>
    if toLower < toUpper then some lower
    else if toUpper < toLower then some upper
    else if lower % 2 = 0 then some lower else some upper
  | true, false => some lower
  | false, true => some upper
  | false, false => none

/-- The shortest decimal of a finite positive double among those with at most
    `digits + fuel` digits, tried from `digits` on. -/
def shortestFrom (x : Binary64) (top : Int) : Nat → Nat → Decimal
  | 0, digits => ⟨0, top + 1 - digits⟩
  | fuel + 1, digits =>
    let e := top + 1 - digits
    match x.neighbour? e with
    | some a => ⟨a, e⟩
    | none => shortestFrom x top fuel (digits + 1)

/-- The shortest decimal that reads back as the magnitude of a finite double;
    seventeen digits always suffice. -/
def shortest (x : Binary64) : Decimal :=
  if x.isZero then ⟨0, 0⟩
  else
    let (num, den) := shiftRatio x.significand 1 (-x.exponent)
    shortestFrom x (floorLog10 num den) 17 1

end Binary64

/-! ## Notation -/

namespace Decimal

/-- The digits of a natural, most significant first. -/
def digitChars (n : Nat) : List Char := Nat.toDigits 10 n

/-- How a format writes decimals. -/
structure Style where
  /-- The least power of ten of a leading digit that is written positionally. -/
  plainFrom : Int
  /-- The first power of ten that is written with an exponent again. -/
  plainBelow : Int
  /-- Whether a positive exponent has a sign. -/
  plusSign : Bool

/-- Digits without trailing zeros, and how many of them were dropped. -/
def dropTrailingZeros (digits : List Char) : List Char :=
  (digits.reverse.dropWhile (· = '0')).reverse

/-- The text of a decimal under a style, always with a point or an exponent. -/
def render (style : Style) (d : Decimal) : String :=
  if d.digits = 0 then "0.0"
  else
    let all := digitChars d.digits
    let top : Int := d.exponent + all.length - 1
    let digits := dropTrailingZeros all
    if style.plainFrom ≤ top && top < style.plainBelow then
      if top < 0 then
        String.ofList ('0' :: '.' :: List.replicate (-top - 1).toNat '0' ++ digits)
      else
        let whole := top.toNat + 1
        let front := digits.take whole ++ List.replicate (whole - digits.length) '0'
        let back := if digits.length ≤ whole then ['0'] else digits.drop whole
        String.ofList (front ++ '.' :: back)
    else
      let mantissa := match digits with
        | [] => []
        | [c] => [c]
        | c :: rest => c :: '.' :: rest
      let sign := if top < 0 then ['-'] else if style.plusSign then ['+'] else []
      String.ofList (mantissa ++ 'e' :: sign ++ digitChars top.natAbs)

end Decimal

/-- The text of a finite double under a style. -/
def Binary64.render (style : Decimal.Style) (x : Binary64) : String :=
  let text := x.shortest.render style
  if x.negative then "-" ++ text else text

end ApiDigest
