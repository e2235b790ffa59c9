import Shading.Machine.Registers
import Shading.Renderer
import Shading.Shader

namespace Shading

/-!
# Machines

A machine runs shaders over grids, every instruction at all points at once.  It can be used for one
run after another.
-/

structure Config where
  /-- How many instructions a run may execute. -/
  limit : Option Nat := none
  /-- How many temporaries a new machine has. -/
  temporaries : Nat := 16
  deriving DecidableEq, Repr

/-- A machine; `σ` is what its renderer keeps from one evaluation to the next. -/
structure Machine (σ : Type) where
  config : Config
  /-- The offset of the next instruction. -/
  ip : Nat
  width : Nat
  height : Nat
  masks : MaskStack
  registers : Registers
  /-- Which symbols were read from the grid. -/
  bound : Array Bool
  /-- How many instructions the last run has executed. -/
  executed : Nat
  world : σ

namespace Machine

variable {σ : Type}

/-- A machine that has not run yet. -/
def new (config : Config) (world : σ) : Except Fault (Machine σ) := do
  return {
    config := config
    ip := 0
    width := 0
    height := 0
    masks := MaskStack.base 0
    registers := ⟨#[], ← Registers.emptyTemporaries config.temporaries⟩
    bound := #[]
    executed := 0
    world := world }

variable (machine : Machine σ)

def points : Nat := machine.width * machine.height

/-- Back to the first instruction, all points active, all temporaries empty. -/
def reset : Except Fault (Machine σ) := do
  return { machine with
    ip := 0
    executed := 0
    masks := ← machine.masks.reset machine.points
    registers := ← machine.registers.clearTemporaries 0 }

/-- Ready to run a shader: reset, with all the temporaries it addresses. -/
def ready (shader : Shader) : Except Fault (Machine σ) := do
  let machine ← machine.reset
  return { machine with
    registers := ← machine.registers.clearTemporaries shader.temporaries }

end Machine

end Shading
