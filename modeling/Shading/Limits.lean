import Shading.Fault

namespace Shading

/-!
# Limits

The number of points of a grid is counted in 64 bits, and nothing takes 2^63 bytes or more.

* `countPoints` — how many points a grid of given dimensions has.
* `requireRoom` — whether so many entries can be held at all.
-/

/-- The number of points of a grid of the given dimensions; it has to fit in 64 bits. -/
def countPoints (width height : Nat) : Except Fault Nat :=
  if width * height < UInt64.size then .ok (width * height) else .error .tooLarge

/-- There is room for `count` entries of so many bytes each. -/
def requireRoom (bytes count : Nat) : Except Fault Unit :=
  if bytes * count < 0x8000000000000000 then .ok () else .error .tooLarge

end Shading
