import Shading.Mask
import Shading.Scene

namespace Shading

/-!
# Calling builtins

What a builtin is given and what it gives back.  A function with a result computes it at every
point, from the elements its arguments have there; a function without one writes its arguments at
the active points.
-/

/-- What a builtin sees besides its arguments. -/
structure Setting where
  scene : Scene
  width : Nat
  height : Nat
  mask : Option Mask

/-- What a builtin gives back: its result, or its arguments as it leaves them. -/
inductive Reply
  | result (value : Value)
  | arguments (values : Array Value)

namespace Setting

variable (setting : Setting)

def points : Nat := setting.width * setting.height

/-- The setting over a grid of the given dimensions, whose points can be counted. -/
def ofDimensions (scene : Scene) (width height : Nat) (mask : Option Mask) :
    Except Fault Setting := do
  discard (countPoints width height)
  return ⟨scene, width, height, mask⟩

def isActive (i : Nat) : Except Fault Bool :=
  match setting.mask with
  | some mask => fetch mask i
  | none => .ok true

/-- The float value with element `f i` at point `i`. -/
def floats (storage : Storage) (f : Nat → Except Fault Float32) : Except Fault Value := do
  let size := storage.size setting.points
  let value ← Value.allocate .float storage size
  return { value with floats := ← tabulate size f }

/-- The value of a type of triples with element `f i` at point `i`. -/
def triples (type : ElementType) (storage : Storage) (f : Nat → Except Fault Vec3) :
    Except Fault Value := do
  let size := storage.size setting.points
  let value ← Value.allocate type storage size
  let elements ← tabulate size f
  return { value with floats := elements.flatMap fun v => #[v.x, v.y, v.z] }

end Setting

/-- The storage of a result that depends on all of `values`. -/
def widestOf (values : List Value) : Storage :=
  values.foldl (fun storage value => storage.widest value.storage) .uniform

def requireTriple (user : String) (value : Value) : Except Fault Unit :=
  if value.type.isTriple then .ok () else .error (.tripleRequired user value.type)

def requireUniform (user : String) (value : Value) : Except Fault Unit :=
  if value.isUniform then .ok () else .error (.uniformRequired user value.type)

end Shading
