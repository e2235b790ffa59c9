import Shading.Decimal.Nearest

namespace Shading

/-!
# Numerals

A numeral is a decimal number as it stands in text: an optional sign, digits with an optional point
among or before them, and an optional exponent.  `Numeral.scan` reads the longest one that a text
begins with; `parseFloat?` reads a whole text, which may also name an infinity or a NaN.
-/

/-- What the beginning of a text turned out to be: the item wanted with the text after it, something
    else, or an item that breaks off in the middle. -/
inductive Scan (α : Type)
  | found (item : α) (rest : List Char)
  | absent
  | broken

structure Numeral where
  negative : Bool
  decimal : Decimal
  deriving DecidableEq, Repr

namespace Numeral

def toFloat32 (numeral : Numeral) : Float32 :=
  Binary32.toFloat32 numeral.negative numeral.decimal.nearest

/-- An optional sign; true for a minus. -/
def sign : List Char → Bool × List Char
  | '+' :: rest => (false, rest)
  | '-' :: rest => (true, rest)
  | rest => (false, rest)

/-- Digits with an optional point: those before it, those after it, and the text that follows.  One
    side of the point may be empty. -/
def mantissa? (text : List Char) : Option (List Char × List Char × List Char) :=
  let whole := text.takeWhile Char.isDigit
  match text.dropWhile Char.isDigit with
  | '.' :: rest =>
    let fraction := rest.takeWhile Char.isDigit
    if whole.isEmpty && fraction.isEmpty then
      none
    else
      some (whole, fraction, rest.dropWhile Char.isDigit)
  | rest => if whole.isEmpty then none else some (whole, [], rest)

/-- An optional exponent; the letter must be followed by digits. -/
def exponent (text : List Char) : Scan Int :=
  match text with
  | [] => .found 0 []
  | c :: rest =>
    if c = 'e' ∨ c = 'E' then
      let (negative, rest) := sign rest
      let digits := rest.takeWhile Char.isDigit
      let size : Int := Nat.ofDigitChars 10 digits 0
      if digits.isEmpty then .broken
      else .found (if negative then -size else size) (rest.dropWhile Char.isDigit)
    else
      .found 0 text

/-- Reads the numeral that `text` begins with. -/
def scan (text : List Char) : Scan Numeral :=
  let (negative, text) := sign text
  match mantissa? text with
  | none => .absent
  | some (whole, fraction, text) =>
    match exponent text with
    | .found power rest =>
      let digits := Nat.ofDigitChars 10 (whole ++ fraction) 0
      .found ⟨negative, ⟨digits, power - fraction.length⟩⟩ rest
    | .absent => .absent
    | .broken => .broken

end Numeral

/-- The float a whole text stands for: a numeral, or `inf`, `infinity` or `nan` in any case after an
    optional sign. -/
def parseFloat? (text : String) : Option Float32 :=
  match Numeral.scan text.toList with
  | .found numeral [] => some numeral.toFloat32
  | _ =>
    let (negative, rest) := Numeral.sign text.toList
    let word := String.ofList (rest.map Char.toLower)
    if word = "inf" ∨ word = "infinity" then
      some (Binary32.toFloat32 negative Binary32.infinity)
    else if word = "nan" then
      some (Binary32.toFloat32 negative 0x7fc00000)
    else
      none

end Shading
