import Shading.Decimal.Shortest

namespace Shading

/-!
# Floats as text

A float is written with the digits of its shortest decimal.  A `NumberStyle` decides where the
digits go.

* `NumberStyle.plain` — always positional, whole numbers without a point: `1`, `0.0000001`.
* `NumberStyle.detailed` — a point in every positional number, an exponent for very small and very
  large ones: `1.0`, `9.9e-6`, `1e16`.
-/

/-- The choices in writing a decimal. -/
structure NumberStyle where
  /-- Whole numbers end in `.0`. -/
  wholePoint : Bool
  /-- The powers of ten of the leading digit for which no exponent is written. -/
  positional : Int → Bool

namespace Decimal

/-- The power of ten of the leading digit. -/
def leading (x : Decimal) : Int :=
  x.exponent + (Nat.toDigits 10 x.digits).length - 1

/-- The digits with the point, and the zeros it needs, in place. -/
def positionalChars (wholePoint : Bool) (x : Decimal) : List Char :=
  let digits := Nat.toDigits 10 x.digits
  let places := (-x.exponent).toNat
  if places = 0 then
    digits ++ List.replicate x.exponent.toNat '0' ++ (if wholePoint then ['.', '0'] else [])
  else if places < digits.length then
    digits.take (digits.length - places) ++ '.' :: digits.drop (digits.length - places)
  else
    '0' :: '.' :: (List.replicate (places - digits.length) '0' ++ digits)

/-- One digit before the point, the others after it, then the power of ten. -/
def exponentChars (x : Decimal) : List Char :=
  let mantissa := match Nat.toDigits 10 x.digits with
    | first :: second :: rest => first :: '.' :: second :: rest
    | digits => digits
  mantissa ++ 'e' :: (toString x.leading).toList

end Decimal

namespace NumberStyle

/-- Every number is positional. -/
def plain : NumberStyle := ⟨false, fun _ => true⟩

/-- Numbers below `10 ^ -4` and from `10 ^ 16` on have an exponent. -/
def detailed : NumberStyle := ⟨true, fun power => -4 ≤ power && power < 16⟩

/-- The text of a float. -/
def text (style : NumberStyle) (x : Float32) : String :=
  let bits := x.toBits.toNat
  let magnitude := bits % 0x80000000
  let sign := if 0x80000000 ≤ bits then ['-'] else []
  if Binary32.infinity < magnitude then
    "NaN"
  else if magnitude = Binary32.infinity then
    String.ofList (sign ++ ['i', 'n', 'f'])
  else
    let decimal := Decimal.shortest magnitude
    String.ofList <| sign ++
      if magnitude = 0 || style.positional decimal.leading then
        decimal.positionalChars style.wholePoint
      else
        decimal.exponentChars

end NumberStyle

/-- A float as values and listings show it. -/
def floatText (x : Float32) : String := NumberStyle.plain.text x

end Shading
