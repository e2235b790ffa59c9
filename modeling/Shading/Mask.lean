import Shading.Value

namespace Shading

/-!
# Mask stacks

A mask marks the points that are active.  Entering a conditional pushes the points of the enclosing
mask where its predicate holds, turning to the other branch replaces the top by the rest of the
enclosing mask, and leaving the conditional pops it.  At the bottom is a base that marks all points.

* `MaskStack.generate`, `MaskStack.invert`, `MaskStack.clear` — enter, turn over, leave.
* `MaskStack.active` — the top, or nothing outside of every conditional.
-/

abbrev Mask := Array Bool

structure MaskStack where
  points : Nat
  /-- The masks, the innermost first and the base last. -/
  entries : List Mask
  deriving DecidableEq, Repr

namespace MaskStack

/-- A stack without even a base. -/
def bare : MaskStack := ⟨0, []⟩

/-- The base alone. -/
def base (points : Nat) : MaskStack := ⟨points, [Array.replicate points true]⟩

/-- The base alone, if there is room for it. -/
def new (points : Nat) : Except Fault MaskStack := do
  requireRoom 1 points
  return base points

instance : Inhabited MaskStack := ⟨bare⟩

/-- Back to the base alone, over `points` points. -/
def reset (_masks : MaskStack) (points : Nat) : Except Fault MaskStack := new points

variable (masks : MaskStack)

/-- The number of masks, the base included. -/
def depth : Nat := masks.entries.length

def top : Except Fault Mask :=
  match masks.entries with
  | mask :: _ => .ok mask
  | [] => .error .noBase

/-- Enters a conditional: a point stays active where the predicate is not zero. -/
def generate (predicate : Value) : Except Fault MaskStack := do
  if predicate.components ≠ 1 then
    throw (.predicateType predicate.type)
  if predicate.isVarying ∧ predicate.size ≠ masks.points then
    throw (.predicateSize predicate.size masks.points)
  let top ← masks.top
  let mask ← tabulate masks.points fun i => do
    if ← fetch top i then
      return (← predicate.float i) != 0
    else
      return false
  return { masks with entries := mask :: masks.entries }

/-- Turns to the other branch of the innermost conditional. -/
def invert : Except Fault MaskStack :=
  match masks.entries with
  | top :: enclosing :: rest =>
    let other := Array.zipWith (fun active outer => !active && outer) top enclosing
    .ok { masks with entries := other :: enclosing :: rest }
  | _ => .error .invertBase

/-- Leaves the innermost conditional. -/
def clear : Except Fault MaskStack :=
  match masks.entries with
  | _ :: enclosing :: rest => .ok { masks with entries := enclosing :: rest }
  | _ => .error .clearBase

/-- No point is active. -/
def isEmpty : Except Fault Bool :=
  return !(← masks.top).any id

def activePoints : Except Fault Nat :=
  return (← masks.top).count true

/-- The top; outside of every conditional, where all points are written, there is none. -/
def active : Except Fault (Option Mask) :=
  match masks.entries with
  | [_] => .ok none
  | _ => some <$> masks.top

end MaskStack

end Shading
