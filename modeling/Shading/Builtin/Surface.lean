import Shading.Builtin.Setting

namespace Shading

/-!
# Builtins on surfaces

Differences between neighbouring points of the grid, and the normals and areas made of them.  The
point in column `x` and row `y` of a grid has number `y * width + x`.
-/

/-- The two neighbours whose difference is the change at point `i`: the point itself and the next
    one, or at the far edge the pair before.  There are none across a grid of width one. -/
def neighbours? (width height : Nat) (direction : Direction) (i : Nat) : Option (Nat × Nat) :=
  let x := i % width
  let y := i / width
  match direction with
  | .u =>
    if 1 < width then
      let x := min x (width - 2)
      some (y * width + x, y * width + x + 1)
    else none
  | .v =>
    if 1 < height then
      let y := min y (height - 2)
      some (y * width + x, (y + 1) * width + x)
    else none

namespace Setting

variable (setting : Setting)

/-- The change of a value from each point to the next in a direction.  What does not vary does not
    change. -/
def difference (direction : Direction) (value : Value) : Except Fault Value := do
  if value.type ≠ .float ∧ ¬ value.type.isTriple then
    throw (.notDifferentiable direction value.type)
  let zeros := Value.zeros value.type value.storage value.size
  match value.storage with
  | .uniform => return zeros
  | .varying =>
    if value.size ≠ setting.width * setting.height then
      throw (.derivativeSize direction value.size setting.width setting.height)
    let pair := neighbours? setting.width setting.height direction
    if value.type = .float then
      let floats ← tabulate value.size fun i => do
        match pair i with
        | some (a, b) => return (← value.float b) - (← value.float a)
        | none => return 0
      return { zeros with floats := floats }
    else
      let triples ← tabulate value.size fun i => do
        match pair i with
        | some (a, b) => return (← value.vec3 b) - (← value.vec3 a)
        | none => return Vec3.zero
      return { zeros with floats := triples.flatMap fun v => #[v.x, v.y, v.z] }

variable (arguments : Array Value)

def derivative (direction : Direction) : Except Fault Value := do
  setting.difference direction (← fetch arguments 0)

/-- The normal of the surface: the cross product of its changes in the two directions, in the order
    that suits the handedness of the scene. -/
def calculatenormal : Except Fault Value := do
  let p ← fetch arguments 0
  requireTriple "calculatenormal" p
  let du ← setting.difference .u p
  let dv ← setting.difference .v p
  setting.triples .normal p.storage fun i => do
    let u ← du.vec3 i
    let v ← dv.vec3 i
    return if setting.scene.leftHanded then u.cross v else v.cross u

/-- The area of the micropolygon at each point: the product of the lengths of its edges. -/
def area : Except Fault Value := do
  let p ← fetch arguments 0
  requireTriple "area" p
  let zeros := Value.zeros .float p.storage p.size
  if p.isUniform ∨ setting.width < 2 ∨ setting.height < 2 then
    return zeros
  let floats ← tabulate p.size fun i => do
    match neighbours? setting.width setting.height .u i,
        neighbours? setting.width setting.height .v i with
    | some (a, b), some (c, d) =>
      let u := ((← p.vec3 b) - (← p.vec3 a)).length
      let v := ((← p.vec3 d) - (← p.vec3 c)).length
      return u * v
    | _, _ => return 0
  return { zeros with floats := floats }

end Setting

end Shading
