import Shading.Builtin.Setting

namespace Shading

/-!
# Builtins on spaces

Rotations, changes of coordinate system, and depth in raster space.
-/

/-- How a matrix acts on what a triple stands for. -/
def TransformKind.apply (kind : TransformKind) (matrix : Mat4) : Vec3 → Vec3 :=
  match kind with
  | .point => matrix.point
  | .vector => matrix.direction
  | .normal => matrix.inverse.transpose.direction

namespace Setting

variable (setting : Setting) (arguments : Array Value)

/-- The first argument turned by an angle about the direction from the third argument to the
    fourth. -/
def rotate : Except Fault Value := do
  let q ← fetch arguments 0
  let angle ← fetch arguments 1
  let p0 ← fetch arguments 2
  let p1 ← fetch arguments 3
  requireTriple "rotate" q
  requireUniform "rotate" angle
  requireUniform "rotate" p0
  requireUniform "rotate" p1
  let axis := ((← p1.vec3 0) - (← p0.vec3 0)).normalizeOrZero
  let rotation := Mat4.rotation axis (← angle.float 0)
  setting.triples q.type q.storage fun i => return rotation.direction (← q.vec3 i)

/-- The matrix that the arguments before the last one of a transform describe: a space, a matrix,
    two spaces, or a space and a matrix. -/
def leadingMatrix (scene : Scene) (leading : List Value) : Except Fault Mat4 := do
  leading.forM (requireUniform "transform")
  match leading, leading.map Value.type with
  | [space], [.string] => return scene.toSpace (← space.string)
  | [matrix], [.matrix] => matrix.matrix 0
  | [source, target], [.string, .string] =>
    return scene.between (← source.string) (← target.string)
  | [source, matrix], [.string, .matrix] => do
    let matrix ← matrix.matrix 0
    return matrix * scene.fromSpace (← source.string)
  | _, _ => throw (.leadingArguments leading.length)

/-- The last argument taken to another space. -/
def transform (kind : TransformKind) : Except Fault Value := do
  let p ← match arguments.back? with
    | some p => pure p
    | none => throw .outOfRange
  requireTriple "transform" p
  let matrix ← leadingMatrix setting.scene arguments.pop.toList
  let act := kind.apply matrix
  setting.triples p.type p.storage fun i => return act (← p.vec3 i)

/-- The depth of a point in raster space. -/
def depth : Except Fault Value := do
  let p ← fetch arguments 0
  requireTriple "depth" p
  setting.floats p.storage fun i => return (setting.scene.raster (← p.vec3 i)).z

end Setting

end Shading
