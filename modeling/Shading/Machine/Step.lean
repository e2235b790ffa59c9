import Shading.Builtin.Call
import Shading.Machine.Command
import Shading.Machine.State

namespace Shading

/-!
# Steps of a machine

* `Machine.compute`, `Machine.assign`, `Machine.call`, `Machine.evaluate` — the commands that change
  registers.
* `Machine.perform` — any command.
* `Machine.step` — the instruction at the machine's offset.
-/

/-- An operand has the shape that the key of its instruction claims. -/
def checkShape (instruction : Instruction) (points : Nat) (shape : Shape) (value : Value) :
    Except Fault Unit :=
  if value.shape? = some shape ∧ value.size = shape.storage.size points then
    .ok ()
  else
    .error (.operandShape instruction value.storage value.type value.size shape)

namespace PointOp

/-- The operands have the shapes that the operation is for. -/
def check (op : PointOp) (instruction : Instruction) (points : Nat) (a b : Value) :
    Except Fault Unit := do
  match op with
  | .arithmetic _ lhs rhs | .test _ lhs rhs =>
    checkShape instruction points lhs a
    checkShape instruction points rhs b
  | .negate shape | .copy _ shape =>
    checkShape instruction points shape a
  | .transform storage =>
    if a.type ≠ .matrix ∨ a.isVarying then
      throw (.matrixRequired instruction a.storage a.type)
    checkShape instruction points ⟨storage, .three⟩ b

/-- The type of the result: that of the wider operand of arithmetic, a float for a test, and that of
    the operand otherwise. -/
def resultType (op : PointOp) (a b : Value) : ElementType :=
  match op with
  | .arithmetic _ _ _ =>
    if max a.components b.components = 1 then .float
    else if b.components ≤ a.components then a.type
    else b.type
  | .test _ _ _ => .float
  | .negate _ | .copy _ _ => a.type
  | .transform _ => b.type

end PointOp

/-- Where a machine goes after a command. -/
inductive Flow
  | next
  | jump (target : Nat)
  | halt
  deriving DecidableEq, Repr

namespace Machine

variable {σ : Type} (constants : Array Value) (machine : Machine σ)

/-! ### Commands on registers -/

/-- Computes a value and puts it at the result. -/
def compute (instruction : Instruction) (op : PointOp) (type : Option ElementType)
    (result first last : Address) : Except Fault (Machine σ) := do
  let registers := machine.registers
  let points := machine.points
  registers.checkAliases constants result [first, last]
  let destination ← registers.claim result
  let a ← registers.read constants first
  let b ← registers.read constants last
  op.check instruction points a b
  let type := type.getD (op.resultType a b)
  let destination ← destination.ensure type op.storage (op.storage.size points)
  let floats ← op.run destination.floats a.floats b.floats points
  let value := { destination with floats := floats }
  return { machine with registers := ← registers.commit machine.masks points result value }

/-- Writes a source into a register.  A plain assignment first gives an empty register, or a
    temporary of another shape, the shape that the key wants. -/
def assign (instruction : Instruction) (update : Update) (target source : Address) :
    Except Fault (Machine σ) := do
  let registers := machine.registers
  let points := machine.points
  registers.checkAliases constants target [source]
  let destination ← registers.target target
  let value ← registers.read constants source
  checkShape instruction points update.source value
  let reshaped := destination.isEmpty ||
    (target matches .temporary _) && destination.shape? ≠ some update.destination
  let storage := update.destination.storage
  let destination ←
    if update.operator = .replace ∧ reshaped then
      destination.reset value.type storage (storage.size points)
    else
      pure destination
  checkShape instruction points update.destination destination
  let mask ← match storage with
    | .varying => machine.masks.active
    | .uniform => pure none
  let floats ← update.run destination.floats value.floats mask points
  return { machine with registers := ← registers.put target { destination with floats := floats } }

/-- The argument is a copy of what its address holds: it is a constant, or the result of a function
    with one. -/
def isCopied (function : Builtin) (result address : Address) : Bool :=
  address.isConstant || (!function.isVoid && address = result)

/-- Arguments on their way into a call: the registers that are left, the values, and the places of
    those that were moved out of their registers, the last one first. -/
structure Passing where
  registers : Registers
  values : Array Value
  moved : List Nat

/-- Passes the argument at place `n`.  Unless it is a copy, or was passed before, it is moved out of its
    register, so that the same address later in the list finds the register empty. -/
def pass (function : Builtin) (result : Address) (addresses : List Address) (passing : Passing)
    (address : Address) (n : Nat) : Except Fault Passing := do
  if isCopied function result address || (addresses.take n).contains address then
    let value ← passing.registers.read constants address
    return { passing with values := passing.values.push value }
  else
    let (value, registers) ← passing.registers.take address
    return ⟨registers, passing.values.push value, n :: passing.moved⟩

/-- Puts the arguments that were moved back where they came from.  Each leaves the values from their
    end, so what was passed after it is dropped first. -/
def putBack (addresses : List Address) :
    List Nat → Array Value → Registers → Except Fault Registers
  | [], _, registers => .ok registers
  | n :: moved, values, registers => do
    let values := values.take (n + 1)
    match values.back?, addresses[n]? with
    | some value, some address =>
      putBack addresses moved values.pop (← registers.put address value)
    | some _, none => throw .outOfRange
    | none, _ => putBack addresses moved values registers

/-- Calls a builtin.  The arguments are moved out of their registers for the duration of the call and
    moved back afterwards, so that a function that writes its arguments writes the registers. -/
def call (scene : Scene) (function : Builtin) (result : Address) (addresses : List Address) :
    Except Fault (Machine σ) := do
  let passing ← addresses.zipIdx.foldlM (fun passing (address, n) =>
    pass constants function result addresses passing address n) ⟨machine.registers, #[], []⟩
  if !function.isVoid then
    discard (passing.registers.claim result)
  let setting : Setting := ⟨scene, machine.width, machine.height, ← machine.masks.active⟩
  match ← function.run setting passing.values with
  | .result value =>
    let registers ← passing.registers.commit machine.masks machine.points result value
    return { machine with registers := ← putBack addresses passing.moved passing.values registers }
  | .arguments values =>
    return { machine with
      registers := ← putBack addresses passing.moved values passing.registers }

/-- Hands the symbols to the renderer. -/
def evaluate (renderer : Renderer σ) (symbols : SymbolTable) (name : Address) :
    Except Fault (Machine σ) := do
  let name ← (← machine.registers.read constants name).string
  let (bindings, world) := renderer.evaluate name ⟨symbols, machine.registers.symbols⟩ machine.world
  let registers := { machine.registers with symbols := bindings.values }
  return { machine with registers := registers, world := world }

/-! ### All commands -/

/-- Whether a jump is taken. -/
def taken : JumpCondition → Except Fault Bool
  | .always => .ok true
  | .empty => machine.masks.isEmpty
  | .notEmpty => return !(← machine.masks.isEmpty)

def perform (renderer : Renderer σ) (shader : Shader) (instruction : Instruction)
    (command : Command) : Except Fault (Flow × Machine σ) := do
  let constants := shader.constants
  match command with
  | .nothing => return (.next, machine)
  | .halt => return (.halt, machine)
  | .discard =>
    return (.next, { machine with registers := ← machine.registers.clearTemporaries 0 })
  | .clearMask => return (.next, { machine with masks := ← machine.masks.clear })
  | .generateMask predicate =>
    let predicate ← machine.registers.read constants predicate
    return (.next, { machine with masks := ← machine.masks.generate predicate })
  | .invertMask => return (.next, { machine with masks := ← machine.masks.invert })
  | .jump condition target =>
    if ← machine.taken condition then
      match target with
      | some target => return (.jump target, machine)
      | none => throw .outOfRange
    else
      return (.next, machine)
  | .compute op type result first last =>
    return (.next, ← machine.compute constants instruction op type result first last)
  | .assign update target source =>
    return (.next, ← machine.assign constants instruction update target source)
  | .call function result arguments =>
    return (.next, ← machine.call constants renderer.scene function result arguments)
  | .evaluate name =>
    return (.next, ← machine.evaluate constants renderer shader.symbols name)

/-- Executes the instruction that `word`, at the machine's offset, begins, and moves on. -/
def step (renderer : Renderer σ) (shader : Shader) (word : Word) :
    Except Fault (Flow × Machine σ) := do
  let ip := machine.ip
  let instruction ← (Instruction.decode word).mapError (Fault.malformedCode ip)
  let command ← Command.decode shader.code ip instruction
  let counted := { machine with executed := machine.executed + 1 }
  match ← counted.perform renderer shader instruction command with
  | (.next, machine) =>
    let size ← instructionSize shader.code ip instruction.opcode
    return (.next, { machine with ip := ip + size })
  | (.jump target, machine) => return (.jump target, { machine with ip := target })
  | (.halt, machine) => return (.halt, machine)

end Machine

end Shading
