import Shading.Mask
import Shading.Update

namespace Shading

/-!
# Registers

The values that code addresses besides the constants of its shader: one register for each symbol,
and temporaries for intermediate results.

* `Registers.read`, `Registers.put` — what an address holds.
* `Registers.take` — a value moved out of its register.
* `Registers.claim` — the value an operation computes into.
* `Registers.commit` — the result of an operation put where it belongs.
-/

structure Registers where
  symbols : Array Value
  temporaries : Array Value

namespace Registers

variable (registers : Registers)

/-- So many empty temporaries, if there is room for them at 48 bytes each. -/
def emptyTemporaries (count : Nat) : Except Fault (Array Value) := do
  requireRoom 48 count
  return Array.replicate count Value.empty

/-- Registers in which every temporary is empty and there are at least `count` of them. -/
def clearTemporaries (count : Nat) : Except Fault Registers := do
  let temporaries ← emptyTemporaries (max registers.temporaries.size count)
  return { registers with temporaries := temporaries }

def read (constants : Array Value) : Address → Except Fault Value
  | .constant i => fetch constants i
  | .symbol i => fetch registers.symbols i
  | .temporary i => fetch registers.temporaries i

/-- What a register holds that is going to be changed in place. -/
def target (address : Address) : Except Fault Value :=
  match address with
  | .constant _ => .error (.notWritable address)
  | .symbol i => fetch registers.symbols i
  | .temporary i => fetch registers.temporaries i

def put (address : Address) (value : Value) : Except Fault Registers :=
  match address with
  | .constant _ => .error (.notWritable address)
  | .symbol i => return { registers with symbols := ← store registers.symbols i value }
  | .temporary i => return { registers with temporaries := ← store registers.temporaries i value }

/-- Moves a value out of its register, which is left empty. -/
def take (address : Address) : Except Fault (Value × Registers) := do
  let value ← registers.target address
  return (value, ← registers.put address Value.empty)

/-- Operands that are also the result have to be there before the result is claimed. -/
def checkAliases (constants : Array Value) (result : Address) (operands : List Address) :
    Except Fault Unit :=
  operands.forM fun operand =>
    if operand = result then discard (registers.read constants operand) else .ok ()

/-- The value an operation computes into: a temporary's own, or an empty one for a symbol, which
    takes its result later. -/
def claim (result : Address) : Except Fault Value :=
  match result with
  | .symbol _ => .ok Value.empty
  | _ => registers.target result

/-- The floats of a varying value overwritten by those of `value` at the active points, or all of
    them if there is no mask. -/
def merge (mask : Option Mask) (width : Nat) (target value : Buffer) : Except Fault Buffer :=
  match mask with
  | none => if target.size = value.size then .ok value else .error .outOfRange
  | some mask =>
    forPlaces mask.size target fun i target => do
      if ← fetch mask i then
        forPlaces width target fun c target => do
          store target (i * width + c) (← fetch value (i * width + c))
      else
        return target

/-- Puts a computed value at `result`.  A temporary takes it as it is, and so does a symbol that
    holds nothing.  A uniform symbol takes uniform values only.  A varying symbol keeps its type and
    takes the value at the active points, a uniform value being given to every point. -/
def commit (masks : MaskStack) (points : Nat) (result : Address) (value : Value) :
    Except Fault Registers := do
  match result with
  | .symbol _ =>
    let target ← registers.target result
    if target.isEmpty then
      registers.put result value
    else if target.isUniform then
      if value.isUniform then registers.put result value else throw (.varyingResult result)
    else
      if target.components ≠ value.components then
        throw (.resultType value.type target.type result)
      let value ← if value.isUniform then value.broadcast points else pure value
      let floats ← merge (← masks.active) target.components target.floats value.floats
      registers.put result { target with floats := floats }
  | _ => registers.put result value

end Registers

end Shading
