import Shading.Vocabulary

namespace Shading

/-!
# Builtin functions

The functions that `call` reaches, with their names, codes and argument counts.
-/

/-- A coordinate axis of a triple. -/
inductive Axis
  | x
  | y
  | z
  deriving DecidableEq, Repr

/-- What a transformed triple stands for. -/
inductive TransformKind
  | point
  | vector
  | normal
  deriving DecidableEq, Repr

/-- The two directions of a grid: `u` along a row, `v` along a column. -/
inductive Direction
  | u
  | v
  deriving DecidableEq, Repr

inductive Builtin
  | component (axis : Axis)
  | setComponent (axis : Axis)
  | length
  | normalize
  | distance
  | area
  | faceforward
  | reflect
  | refract
  | fresnel
  | rotate
  | transform (kind : TransformKind)
  | depth
  | calculatenormal
  | derivative (direction : Direction)
  deriving DecidableEq, Repr

namespace Builtin

instance : Vocabulary Builtin where
  words :=
    [.component .x, .component .y, .component .z,
     .setComponent .x, .setComponent .y, .setComponent .z,
     .length, .normalize, .distance, .area, .faceforward, .reflect, .refract, .fresnel, .rotate,
     .transform .point, .transform .vector, .transform .normal,
     .depth, .calculatenormal, .derivative .u, .derivative .v]
  name
    | .component .x => "xcomp"
    | .component .y => "ycomp"
    | .component .z => "zcomp"
    | .setComponent .x => "setxcomp"
    | .setComponent .y => "setycomp"
    | .setComponent .z => "setzcomp"
    | .length => "length"
    | .normalize => "normalize"
    | .distance => "distance"
    | .area => "area"
    | .faceforward => "faceforward"
    | .reflect => "reflect"
    | .refract => "refract"
    | .fresnel => "fresnel"
    | .rotate => "rotate"
    | .transform .point => "transform"
    | .transform .vector => "vtransform"
    | .transform .normal => "ntransform"
    | .depth => "depth"
    | .calculatenormal => "calculatenormal"
    | .derivative .u => "du"
    | .derivative .v => "dv"

instance : ToString Builtin := ⟨Vocabulary.name⟩

/-- The fewest and the most arguments a call may pass. -/
def arity : Builtin → Nat × Nat
  | .component _ | .length | .normalize | .area | .depth => (1, 1)
  | .calculatenormal | .derivative _ => (1, 1)
  | .setComponent _ | .distance | .reflect => (2, 2)
  | .faceforward | .transform _ => (2, 3)
  | .refract => (3, 3)
  | .rotate => (4, 4)
  | .fresnel => (5, 5)

/-- The functions that write their arguments and have no result. -/
def isVoid : Builtin → Bool
  | .setComponent _ | .fresnel => true
  | _ => false

end Builtin

end Shading
