import Shading.Mask
import Shading.Pointwise

namespace Shading

/-!
# Masked assignment

An `Update` writes a source into a destination in place: it replaces the floats that are there, or
combines them with the source.  A varying destination is written at the active points only.  A
uniform one has no points to choose from and is always written.
-/

def Assignment.apply : Assignment → Float32 → Float32 → Float32
  | .replace, _, new => new
  | .add, old, new => old + new
  | .subtract, old, new => old - new
  | .multiply, old, new => old * new
  | .divide, old, new => old / new

/-- The assignments that scale every component by a float. -/
def Assignment.scales : Assignment → Bool
  | .multiply | .divide => true
  | _ => false

/-- An assignment between operands of known shapes. -/
structure Update where
  operator : Assignment
  destination : Shape
  source : Shape
  deriving DecidableEq, Repr

namespace Update

/-- The assignment of an instruction: the widths agree, or a float scales every component, and a
    uniform destination takes no varying source. -/
def ofInstruction? (instruction : Instruction) : Option Update :=
  match instruction.opcode with
  | .assign operator => do
    let (destination, source) ← instruction.key.shapes?
    guard (destination.width = source.width ∨ (operator.scales ∧ source.width = .one))
    guard (destination.storage = .varying ∨ source.storage = .uniform)
    return ⟨operator, destination, source⟩
  | _ => none

variable (update : Update)

/-- Whether element `i` of the destination is written. -/
def writes (mask : Option Mask) (i : Nat) : Except Fault Bool :=
  match update.destination.storage, mask with
  | .varying, some mask => fetch mask i
  | _, _ => .ok true

/-- Writes every component of element `i`. -/
def writeElement (source : Buffer) (i : Nat) (destination : Buffer) : Except Fault Buffer :=
  let width := update.destination.width.count
  forPlaces width destination fun c destination => do
    let old ← fetch destination (i * width + c)
    let new ← fetch source (update.source.place i c)
    store destination (i * width + c) (update.operator.apply old new)

/-- Writes the elements over `points` points that the mask selects. -/
def run (destination source : Buffer) (mask : Option Mask) (points : Nat) : Except Fault Buffer :=
  forPlaces (update.destination.storage.size points) destination fun i destination => do
    if ← update.writes mask i then update.writeElement source i destination
    else return destination

end Update

end Shading
