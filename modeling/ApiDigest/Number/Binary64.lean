/-
  Binary floating point with 64 bits.

  A double is its bit pattern.  Everything about it is decided in exact natural
  arithmetic: a finite double is `significand * 2 ^ exponent`, and a ratio of two
  naturals is rounded to the nearest double, a tie going to the even significand.

  * `Binary64.ofRatio` rounds a ratio; beyond the largest double it gives an
    infinity, below half of the smallest one it gives a zero;
  * `Binary64.scale10` multiplies by a power of ten, which is itself rounded to
    a double first.
-/

namespace ApiDigest

/-- A double, by its bits: sign, eleven bits of exponent, 52 bits of fraction. -/
structure Binary64 where
  bits : UInt64
deriving DecidableEq, Inhabited

namespace Binary64

/-- The weight of the sign bit, the 63rd power of two. -/
def signWeight : Nat := 0x8000000000000000

/-- The weight of a significand's leading bit, the 52nd power of two. -/
def leadingWeight : Nat := 0x10000000000000

/-! ## Taking a double apart -/

/-- The bits without the sign, which order the non-negative doubles. -/
def magnitude (x : Binary64) : Nat := x.bits.toNat % signWeight

/-- Whether the sign bit is set; zero has a sign too. -/
def negative (x : Binary64) : Bool := signWeight ≤ x.bits.toNat

/-- The magnitude of the infinities. -/
def infiniteMagnitude : Nat := 2047 * leadingWeight

/-- Neither an infinity nor a NaN. -/
def isFinite (x : Binary64) : Bool := x.magnitude < infiniteMagnitude

/-- Not a number. -/
def isNaN (x : Binary64) : Bool := infiniteMagnitude < x.magnitude

/-- Either zero. -/
def isZero (x : Binary64) : Bool := x.magnitude = 0

/-- The significand of a finite double, with its leading bit. -/
def significand (x : Binary64) : Nat :=
  if x.magnitude < leadingWeight then x.magnitude
  else x.magnitude % leadingWeight + leadingWeight

/-- The exponent of the significand's last bit. -/
def exponent (x : Binary64) : Int :=
  if x.magnitude < leadingWeight then -1074
  else (x.magnitude / leadingWeight : Nat) - 1075

/-- Numeric equality: both zeros are equal, and so are all NaNs. -/
def sameValue (x y : Binary64) : Bool :=
  x = y || (x.isZero && y.isZero) || (x.isNaN && y.isNaN)

/-! ## Putting one together -/

/-- The double with the given sign and magnitude. -/
def ofMagnitude (negative : Bool) (magnitude : Nat) : Binary64 :=
  ⟨UInt64.ofNat (magnitude + if negative then signWeight else 0)⟩

/-- Zero with a sign. -/
def zero (negative : Bool) : Binary64 := ofMagnitude negative 0

/-- Infinity with a sign. -/
def infinity (negative : Bool) : Binary64 := ofMagnitude negative infiniteMagnitude

/-- The NaN that arithmetic gives. -/
def nan : Binary64 := ofMagnitude false (infiniteMagnitude + leadingWeight / 2)

/-- The same magnitude with the other sign. -/
def neg (x : Binary64) : Binary64 := ofMagnitude (!x.negative) x.magnitude

/-- A quotient rounded to the nearest natural, a half going to the even one. -/
def roundHalfEven (num den : Nat) : Nat :=
  let quotient := num / den
  let twice := 2 * (num % den)
  if twice < den then quotient
  else if den < twice then quotient + 1
  else quotient + quotient % 2

/-- `num / den` over `2 ^ e`, as a pair of naturals. -/
def shiftRatio (num den : Nat) (e : Int) : Nat × Nat :=
  if 0 ≤ e then (num, den <<< e.toNat) else (num <<< (-e).toNat, den)

/-- The integer part of the binary logarithm of a positive ratio. -/
def floorLog2 (num den : Nat) : Int :=
  let guess : Int := (num.log2 : Int) - den.log2
  let (n, d) := shiftRatio num den guess
  if n < d then guess - 1 else guess

/-- The double nearest to `num / den`, ties to the even significand. -/
def ofRatio (negative : Bool) (num den : Nat) : Binary64 :=
  if num = 0 then zero negative
  else
    let e : Int := max (floorLog2 num den - 52) (-1074)
    let (n, d) := shiftRatio num den e
    let magnitude := (e + 1074).toNat * leadingWeight + roundHalfEven n d
    ofMagnitude negative (min magnitude infiniteMagnitude)

/-- The double nearest to a natural. -/
def ofNat (n : Nat) : Binary64 := ofRatio false n 1

/-- The double nearest to an integer. -/
def ofInt (n : Int) : Binary64 := ofRatio (n < 0) n.natAbs 1

/-- The double nearest to `digits * 10 ^ e`. -/
def ofDecimal (negative : Bool) (digits : Nat) (e : Int) : Binary64 :=
  if 0 ≤ e then ofRatio negative (digits * Nat.pow 10 e.toNat) 1
  else ofRatio negative digits (Nat.pow 10 (-e).toNat)

/-! ## Arithmetic on finite doubles -/

/-- The product of two finite doubles, rounded. -/
def mul (x y : Binary64) : Binary64 :=
  let (n, d) := shiftRatio (x.significand * y.significand) 1 (-(x.exponent + y.exponent))
  ofRatio (x.negative != y.negative) n d

/-- The quotient of a finite double by a non-zero finite double, rounded. -/
def div (x y : Binary64) : Binary64 :=
  let (n, d) := shiftRatio x.significand y.significand (y.exponent - x.exponent)
  ofRatio (x.negative != y.negative) n d

/-- The largest power of ten that is a finite double. -/
def maxPower10 : Nat := 308

/-- The double nearest to `10 ^ k`. -/
def power10 (k : Nat) : Binary64 := ofNat (Nat.pow 10 k)

/-- Division by `10 ^ k` in steps of at most `10 ^ 308`, each rounded. -/
def divPower10 (x : Binary64) (k : Nat) : Binary64 :=
  if x.isZero then x
  else if _h : k ≤ maxPower10 then x.div (power10 k)
  else divPower10 (x.div (power10 maxPower10)) (k - maxPower10)
termination_by k
decreasing_by simp only [maxPower10] at *; omega

/-- Multiplication by `10 ^ e`; nothing when the result is no finite double. -/
def scale10 (x : Binary64) (e : Int) : Option Binary64 :=
  if e < 0 then some (x.divPower10 (-e).toNat)
  else if x.isZero then some x
  else if maxPower10 < e.toNat then none
  else
    let y := x.mul (power10 e.toNat)
    if y.isFinite then some y else none

end Binary64
end ApiDigest
