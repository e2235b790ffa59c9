import Shading.Code.Shape
import Shading.Decimal.Style
import Shading.Geometry
import Shading.Indexed
import Shading.Limits

namespace Shading

/-!
# Values

A value is a typed run of elements, flat in one buffer of floats: a varying color on `n` points is
`3 * n` floats.  A uniform value has one element, which every point reads.  The text of a string is
kept beside the floats.

* `Value.zeros`, `Value.allocate`, `Value.make` — values of a given type, storage and size, all zero.
* `Value.float`, `Value.vec3`, `Value.matrix` — the element a point reads; `Value.setFloat` and
  `Value.setVec3` write it.
* `Value.broadcast` — a uniform value given to every point.
-/

abbrev Buffer := Array Float32

structure Value where
  type : ElementType
  storage : Storage
  /-- The number of elements. -/
  size : Nat
  floats : Buffer
  text : Option String
  deriving BEq, Repr

namespace Value

variable (value : Value)

/-! ### Making values -/

/-- The value of `size` elements whose floats are all zero. -/
def zeros (type : ElementType) (storage : Storage) (size : Nat) : Value where
  type := type
  storage := storage
  size := size
  floats := Array.replicate (type.components * size) 0
  text := none

/-- The value of `size` elements whose floats are all zero, if there is room for them. -/
def allocate (type : ElementType) (storage : Storage) (size : Nat) : Except Fault Value := do
  requireRoom 4 (type.components * size)
  return zeros type storage size

/-- The value that holds nothing, as a register does before its first result. -/
def empty : Value := zeros .float .uniform 0

instance : Inhabited Value := ⟨empty⟩

/-- A zero value; a uniform one must have exactly one element. -/
def make (type : ElementType) (storage : Storage) (size : Nat) : Except Fault Value :=
  if storage = .varying ∨ size = 1 then allocate type storage size
  else .error (.uniformSize size)

def uniformFloat (x : Float32) : Value :=
  { zeros .float .uniform 1 with floats := #[x] }

def uniformVec3 (type : ElementType) (v : Vec3) : Except Fault Value :=
  if type.isTriple then .ok { zeros type .uniform 1 with floats := #[v.x, v.y, v.z] }
  else .error (.notTriple type)

def uniformMatrix (m : Mat4) : Value :=
  { zeros .matrix .uniform 1 with floats := m.toList.toArray }

def uniformString (text : String) : Value :=
  { zeros .string .uniform 1 with text := some text }

def varyingFloat (floats : Buffer) : Value :=
  { zeros .float .varying floats.size with floats := floats }

def varyingVec3 (type : ElementType) (triples : List Vec3) : Except Fault Value :=
  if type.isTriple then
    let floats := triples.flatMap fun v => [v.x, v.y, v.z]
    .ok { zeros type .varying triples.length with floats := floats.toArray }
  else
    .error (.notTriple type)

/-! ### Type, storage and size -/

def components : Nat := value.type.components

def isUniform : Bool := value.storage == .uniform

def isVarying : Bool := value.storage == .varying

def isEmpty : Bool := value.size == 0

/-- The shape an operation sees; matrices and strings have none. -/
def shape? : Option Shape :=
  (Width.ofCount? value.components).map (⟨value.storage, ·⟩)

/-- Gives the value another type, storage and size; its floats become zero and its text is lost. -/
def reset (_value : Value) (type : ElementType) (storage : Storage) (size : Nat) :
    Except Fault Value :=
  allocate type storage size

/-- The value has this type, storage and size. -/
def fits (type : ElementType) (storage : Storage) (size : Nat) : Bool :=
  value.type = type && value.storage = storage && value.size = size

/-- Resets a value unless it has the type, storage and size wanted. -/
def ensure (type : ElementType) (storage : Storage) (size : Nat) : Except Fault Value :=
  if value.fits type storage size then .ok value else value.reset type storage size

/-- Changes the type to one with as many components. -/
def retype (type : ElementType) : Except Fault Value :=
  if value.components = type.components then .ok { value with type := type }
  else .error (.cannotRetype value.type type)

/-- Overwrites every float by zero. -/
def clear : Value :=
  { value with floats := Array.replicate value.floats.size 0 }

/-- A varying value over `points` points that reads as the uniform value does; a varying value is
    left as it is. -/
def broadcast (points : Nat) : Except Fault Value :=
  match value.storage with
  | .varying => .ok value
  | .uniform => do
    let width := value.components
    requireRoom 4 (width * points)
    let floats ← tabulate (width * points) fun k => fetch value.floats (k % width)
    return { value with storage := .varying, size := points, floats := floats }

/-! ### Elements -/

/-- The float that point `i` reads. -/
def float (i : Nat) : Except Fault Float32 :=
  fetch value.floats (value.storage.element i)

/-- The triple that point `i` reads. -/
def vec3 (i : Nat) : Except Fault Vec3 := do
  let base := value.storage.element i * 3
  return ⟨← fetch value.floats base, ← fetch value.floats (base + 1),
    ← fetch value.floats (base + 2)⟩

/-- The matrix that point `i` reads. -/
def matrix (i : Nat) : Except Fault Mat4 :=
  let base := value.storage.element i * 16
  if base + 16 ≤ value.floats.size then .ok (Mat4.ofFn fun k => value.floats.getD (base + k) 0)
  else .error .outOfRange

def setFloat (i : Nat) (x : Float32) : Except Fault Value := do
  return { value with floats := ← store value.floats (value.storage.element i) x }

def setVec3 (i : Nat) (v : Vec3) : Except Fault Value := do
  let base := value.storage.element i * 3
  let floats ← store value.floats base v.x
  let floats ← store floats (base + 1) v.y
  return { value with floats := ← store floats (base + 2) v.z }

/-- The text of a string. -/
def string : Except Fault String :=
  match value.text with
  | some text => .ok text
  | none => .error (.noText value.type)

/-! ### Values as text -/

/-- A single float stands alone, more are put in parentheses. -/
def elementText : List Float32 → String
  | [x] => floatText x
  | xs => "(" ++ String.intercalate ", " (xs.map floatText) ++ ")"

/-- The value as the machine shows it: its text in quotes, or its storage, type and elements. -/
def display : String :=
  match value.text with
  | some text => "\"" ++ text ++ "\""
  | none =>
    let elements := (inGroups (max value.components 1) value.floats.toList).map elementText
    s!"{value.storage} {value.type} [" ++ String.intercalate ", " elements ++ "]"

/-- The element that point `i` reads, as a table shows it. -/
def cellText (i : Nat) : Except Fault String :=
  match value.type with
  | .string => value.string
  | .float => return floatText (← value.float i)
  | .matrix => do
    let entries := (← value.matrix i).toList.map NumberStyle.detailed.text
    return "[" ++ String.intercalate ", " entries ++ "]"
  | .point | .vector | .normal | .color => do
    let v ← value.vec3 i
    return elementText [v.x, v.y, v.z]

end Value

end Shading
