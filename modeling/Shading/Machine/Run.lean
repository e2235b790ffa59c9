import Shading.Grid
import Shading.Machine.Step

namespace Shading

/-!
# Runs of a machine

A run goes on until a halt, the end of the code, the limit of instructions, or a fault.  It may
never end, so it is given a number of turns to take; what it has done by then is kept.

* `Machine.turn` — one instruction, or the reason why there is none.
* `Machine.run` — many turns.
* `Machine.execute` — a shader from its first instruction.
-/

/-- Errors in what a machine is asked to do. -/
inductive MachineError
  | typeMismatch (name : String) (expected actual : ElementType)
  | storageMismatch (name : String) (expected actual : Storage)
  | grid (error : GridError)
  | gridMismatch (expected actual : Nat × Nat)
  | instructionLimit (limit : Nat)
  deriving DecidableEq, Repr

def MachineError.message : MachineError → String
  | .typeMismatch name expected actual =>
    s!"grid value `{name}` is {actual} but the shader declares it {expected}"
  | .storageMismatch name expected actual =>
    s!"grid value `{name}` is {actual} but the shader declares it {expected}"
  | .grid error => error.message
  | .gridMismatch expected actual =>
    s!"output grid is {actual.1}x{actual.2} but the input grid is {expected.1}x{expected.2}"
  | .instructionLimit limit => s!"instruction limit of {limit} reached"

/-- How a run ended, if it did. -/
inductive Outcome
  | finished
  | failed (failure : Failure MachineError)
  | unfinished
  deriving DecidableEq, Repr

/-- What becomes of a machine in one turn. -/
inductive Turn (σ : Type)
  /-- An instruction was executed and there may be more. -/
  | on (machine : Machine σ)
  /-- The run is over. -/
  | over (outcome : Outcome) (machine : Machine σ)

namespace Machine

variable {σ : Type} (renderer : Renderer σ) (shader : Shader)

/-- The limit of instructions that has been reached, if one has. -/
def reachedLimit? (machine : Machine σ) : Option Nat :=
  machine.config.limit.filter (· ≤ machine.executed)

/-- One turn of a run.  A faulty instruction leaves the machine as it was. -/
def turn (machine : Machine σ) : Turn σ :=
  match shader.code[machine.ip]? with
  | none => .over .finished machine
  | some word =>
    match machine.reachedLimit? with
    | some limit => .over (.failed (.error (.instructionLimit limit))) machine
    | none =>
      match machine.step renderer shader word with
      | .error fault => .over (.failed (.fault fault)) machine
      | .ok (.halt, machine) => .over .finished machine
      | .ok (_, machine) => .on machine

/-- A run of at most `turns` turns. -/
def run (turns : Nat) (machine : Machine σ) : Outcome × Machine σ :=
  match turns with
  | 0 => (.unfinished, machine)
  | turns + 1 =>
    match turn renderer shader machine with
    | .on machine => run turns machine
    | .over outcome machine => (outcome, machine)

/-- Runs a shader whose symbols are loaded, from its first instruction. -/
def execute (turns : Nat) (machine : Machine σ) : Outcome × Machine σ :=
  if machine.registers.symbols.size = shader.symbols.size then
    match machine.ready shader with
    | .ok machine => run renderer shader turns machine
    | .error fault => (.failed (.fault fault), machine)
  else
    (.failed (.fault (.notLoaded shader.name)), machine)

end Machine

end Shading
