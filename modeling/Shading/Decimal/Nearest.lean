namespace Shading

/-!
# Decimals and the nearest binary32

Every finite binary32 magnitude is a whole number of units of `2 ^ -149`, the smallest one.  Bit
patterns without the sign bit are in the order of the magnitudes they stand for, infinity coming
right after the largest finite one, so rounding to the nearest magnitude is rounding of a quotient.

* `Binary32.units` — the magnitude of a bit pattern, in units.
* `Binary32.nearest` — the bit pattern nearest to a ratio, halves going to the even pattern.
* `Decimal.nearest` — the same for a decimal `digits · 10 ^ exponent`.
-/

/-- `n / d` rounded to the nearest whole number, halves to the even one. -/
def roundDiv (n d : Nat) : Nat :=
  let quotient := n / d
  let twice := 2 * (n % d)
  if d < twice ∨ (d = twice ∧ quotient % 2 = 1) then quotient + 1 else quotient

namespace Binary32

/-- The bit pattern of infinity, above those of all finite magnitudes. -/
def infinity : Nat := 0x7f800000

/-- The significand of a pattern, as a whole number. -/
def significand (bits : Nat) : Nat :=
  if bits < 0x800000 then bits else 0x800000 + bits % 0x800000

/-- How often the significand is doubled to give the magnitude in units. -/
def scale (bits : Nat) : Nat := bits / 0x800000 - 1

/-- The magnitude of a finite pattern in units of `2 ^ -149`. -/
def units (bits : Nat) : Nat := significand bits <<< scale bits

/-- The pattern nearest to `n / d`: infinity if the ratio is too large for any finite one. -/
def nearest (n d : Nat) : Nat :=
  let n := n <<< 149
  let scale := Nat.log2 (n / d) - 23
  min (roundDiv n (d <<< scale) + scale * 0x800000) infinity

/-- The float with the given sign and magnitude pattern. -/
def toFloat32 (negative : Bool) (bits : Nat) : Float32 :=
  Float32.ofBits (UInt32.ofNat (if negative then 0x80000000 + bits else bits))

end Binary32

def powerOfTen (n : Nat) : Nat := Nat.pow 10 n

/-- The number `digits · 10 ^ exponent`. -/
structure Decimal where
  digits : Nat
  exponent : Int
  deriving DecidableEq, Repr, Inhabited

namespace Decimal

def numerator (x : Decimal) : Nat := x.digits * powerOfTen x.exponent.toNat

def denominator (x : Decimal) : Nat := powerOfTen (-x.exponent).toNat

/-- The pattern nearest to a decimal.  A decimal whose exponent alone puts it beyond the largest
    magnitude, or below half the smallest, is settled without computing the power of ten. -/
def nearest (x : Decimal) : Nat :=
  if x.digits = 0 then
    0
  else if 40 < x.exponent then
    Binary32.infinity
  else if x.digits.log2 + 152 ≤ 3 * (-x.exponent).toNat then
    0
  else
    Binary32.nearest x.numerator x.denominator

end Decimal

end Shading
