import Shading.Code.Instruction
import Shading.Value

namespace Shading

/-!
# Operations at every point

A `PointOp` is an operation together with the shapes of its operands.  It computes the components of
each element of its result from the operands' components at the same place, where a uniform operand
stands for the same element at every point and an operand of width one for the same component
throughout.

* `PointOp.ofInstruction?` — the operation of an instruction, if its key suits its opcode.
* `PointOp.component` — one float of the result.
* `PointOp.run` — the whole result.
-/

/-- Where component `c` of element `e` of an operand lies in its buffer. -/
def Shape.place (shape : Shape) (e c : Nat) : Nat :=
  shape.storage.element e * shape.width.count + if shape.width = .one then 0 else c

/-- Element `e` of an operand. -/
def Shape.elementOf (shape : Shape) (buffer : Buffer) (e : Nat) : Except Fault (List Float32) :=
  (List.range shape.width.count).mapM fun c => fetch buffer (shape.place e c)

def Arithmetic.apply : Arithmetic → Float32 → Float32 → Float32
  | .multiply, x, y => x * y
  | .divide, x, y => x / y
  | .add, x, y => x + y
  | .subtract, x, y => x - y

namespace Test

/-- The tests that join two truth values; zero is false. -/
def isConnective : Test → Bool
  | .and | .or => true
  | _ => false

/-- The tests of elements of any width; the others take single floats. -/
def isEquality : Test → Bool
  | .equal | .notEqual => true
  | _ => false

/-- Whether the test holds of two elements. -/
def holds : Test → List Float32 → List Float32 → Bool
  | .equal, xs, ys => xs == ys
  | .notEqual, xs, ys => xs != ys
  | .greater, [x], [y] => x > y
  | .greaterEqual, [x], [y] => x ≥ y
  | .less, [x], [y] => x < y
  | .lessEqual, [x], [y] => x ≤ y
  | .and, [x], [y] => x != 0 && y != 0
  | .or, [x], [y] => x != 0 || y != 0
  | _, _, _ => false

end Test

/-- An operation on operands of known shapes. -/
inductive PointOp
  | arithmetic (operator : Arithmetic) (lhs rhs : Shape)
  | test (operator : Test) (lhs rhs : Shape)
  | negate (shape : Shape)
  /-- A matrix, the first operand, applied to points. -/
  | transform (storage : Storage)
  /-- The operand at every point and in every component of the result. -/
  | copy (result source : Shape)
  deriving DecidableEq, Repr

namespace PointOp

/-- The operation of an instruction.  The operands of arithmetic are of one width, or one of them is
    a float; tests other than equality take floats; `promote` makes a uniform operand varying;
    `convert` keeps the storage and the width, or widens a float. -/
def ofInstruction? (instruction : Instruction) : Option PointOp :=
  match instruction.opcode with
  | .arithmetic operator => do
    let (lhs, rhs) ← instruction.key.shapes?
    guard (lhs.width = rhs.width ∨ lhs.width = .one ∨ rhs.width = .one)
    return .arithmetic operator lhs rhs
  | .test operator => do
    let (lhs, rhs) ← instruction.key.shapes?
    guard (lhs.width = rhs.width ∧ (operator.isEquality ∨ lhs.width = .one))
    return .test operator lhs rhs
  | .negate => do
    return .negate (← instruction.key.shape?)
  | .transform => do
    let shape ← instruction.key.shape?
    guard (shape.width = .three)
    return .transform shape.storage
  | .promote => do
    let (result, source) ← instruction.key.shapes?
    guard (result.storage = .varying ∧ source.storage = .uniform ∧ result.width = source.width)
    return .copy result source
  | .convert => do
    let (result, source) ← instruction.key.shapes?
    guard (result.storage = source.storage ∧ (result.width = source.width ∨ source.width = .one))
    return .copy result source
  | _ => none

/-- The storage of the result. -/
def storage : PointOp → Storage
  | .arithmetic _ lhs rhs | .test _ lhs rhs => lhs.storage.widest rhs.storage
  | .negate shape => shape.storage
  | .transform storage => storage
  | .copy result _ => result.storage

/-- The floats in one element of the result. -/
def width : PointOp → Nat
  | .arithmetic _ lhs rhs => max lhs.width.count rhs.width.count
  | .test _ _ _ => 1
  | .negate shape => shape.width.count
  | .transform _ => 3
  | .copy result _ => result.width.count

/-- Component `c` of element `e` of the result, from the buffers of the operands. -/
def component (op : PointOp) (a b : Buffer) (e c : Nat) : Except Fault Float32 :=
  match op with
  | .arithmetic operator lhs rhs =>
    return operator.apply (← fetch a (lhs.place e c)) (← fetch b (rhs.place e c))
  | .test operator lhs rhs =>
    return if operator.holds (← lhs.elementOf a e) (← rhs.elementOf b e) then 1 else 0
  | .negate shape =>
    return -(← fetch a (shape.place e c))
  | .transform storage => do
    let matrix := Mat4.ofFn fun k => a.getD k 0
    let place := (Shape.mk storage .three).place e
    let p : Vec4 := ⟨← fetch b (place 0), ← fetch b (place 1), ← fetch b (place 2), 1⟩
    let q := matrix.apply p
    return match c with
      | 0 => q.x
      | 1 => q.y
      | _ => q.z
  | .copy _ source =>
    fetch a (source.place e c)

/-- Writes the result over `points` points into the buffer `result`; floats beyond it stay. -/
def run (op : PointOp) (result a b : Buffer) (points : Nat) : Except Fault Buffer := do
  if op matches .transform _ ∧ a.size < 16 then
    throw .outOfRange
  fill (op.storage.size points * op.width)
    (fun k => op.component a b (k / op.width) (k % op.width)) result

end PointOp

end Shading
