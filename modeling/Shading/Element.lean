import Shading.Vocabulary

namespace Shading

/-!
# Element types and storage classes

A value is a run of elements of one `ElementType`.  Its `Storage` says whether one element is shared
by the whole grid or every point has its own.
-/

/-- What one element of a value is.  Points, vectors, normals and colors are all three floats. -/
inductive ElementType
  | float
  | point
  | vector
  | normal
  | color
  | matrix
  | string
  deriving DecidableEq, Repr, Inhabited

namespace ElementType

instance : Vocabulary ElementType where
  words := [.float, .point, .vector, .normal, .color, .matrix, .string]
  name
    | .float => "float"
    | .point => "point"
    | .vector => "vector"
    | .normal => "normal"
    | .color => "color"
    | .matrix => "matrix"
    | .string => "string"

instance : ToString ElementType := ⟨Vocabulary.name⟩

/-- How many floats one element takes.  The text of a string is kept outside the floats. -/
def components : ElementType → Nat
  | .float => 1
  | .point | .vector | .normal | .color => 3
  | .matrix => 16
  | .string => 0

/-- The types whose elements are three floats. -/
def isTriple (type : ElementType) : Bool :=
  type.components == 3

end ElementType

/-- One element for the whole grid, or one for each point. -/
inductive Storage
  | uniform
  | varying
  deriving DecidableEq, Repr, Inhabited

namespace Storage

instance : Vocabulary Storage where
  words := [.uniform, .varying]
  name
    | .uniform => "uniform"
    | .varying => "varying"

instance : ToString Storage := ⟨Vocabulary.name⟩

def isVarying (storage : Storage) : Bool :=
  storage == .varying

/-- How many elements a value of this storage has on a grid of `points` points. -/
def size (storage : Storage) (points : Nat) : Nat :=
  match storage with
  | .uniform => 1
  | .varying => points

/-- The storage of a result that depends on operands of both storages. -/
def widest : Storage → Storage → Storage
  | .uniform, .uniform => .uniform
  | _, _ => .varying

/-- The element that point `i` reads: every point shares element zero of a uniform value. -/
def element (storage : Storage) (i : Nat) : Nat :=
  match storage with
  | .uniform => 0
  | .varying => i

end Storage

end Shading
