import Shading.Decimal.Nearest

namespace Shading

/-!
# The shortest decimal of a binary32

`Decimal.shortest` is the decimal with the fewest digits that rounds to a given magnitude.  On the
grid of multiples of `10 ^ e` only the two neighbours of the magnitude can do so if any can; the
coarsest grid with a hit has the fewest digits, and of two hits the nearer one is taken, the upper
one if they are equally near.
-/

namespace Decimal

/-- A neighbour of the magnitude among the multiples of `10 ^ e` that rounds back to it. -/
def onGrid? (bits : Nat) (e : Int) : Option Decimal :=
  let n := Binary32.units bits * powerOfTen (-e).toNat
  let d := powerOfTen e.toNat <<< 149
  let lower : Decimal := ⟨n / d, e⟩
  let upper : Decimal := ⟨n / d + 1, e⟩
  match decide (lower.nearest = bits), decide (upper.nearest = bits) with
  | true, true => some (if d ≤ 2 * (n % d) then upper else lower)
  | true, false => some lower
  | false, true => some upper
  | false, false => none

/-- All digits of the magnitude. -/
def exact (bits : Nat) : Decimal :=
  ⟨Binary32.units bits * Nat.pow 5 149, -149⟩

/-- The shortest decimal that rounds to the finite magnitude `bits`, found by going through the
    grids from `10 ^ 39` down. -/
def shortest (bits : Nat) : Decimal :=
  if bits = 0 then
    ⟨0, 0⟩
  else
    ((List.range 100).findSome? fun (i : Nat) => onGrid? bits (39 - i)).getD (exact bits)

end Decimal

end Shading
