import Shading.Code.Walk
import Shading.Update

namespace Shading

/-!
# Commands

A command is an instruction together with its operands, checked as far as the code alone allows.
-/

inductive Command
  | nothing
  | halt
  /-- Empties the temporaries. -/
  | discard
  | clearMask
  | generateMask (predicate : Address)
  | invertMask
  /-- A jump; its target is missing if the code ends before it. -/
  | jump (condition : JumpCondition) (target : Option Nat)
  /-- An operation on two operands.  One on a single operand has it as both the first and the last.
      A conversion says what type it produces. -/
  | compute (op : PointOp) (type : Option ElementType) (result first last : Address)
  | assign (update : Update) (target source : Address)
  | call (function : Builtin) (result : Address) (arguments : List Address)
  | evaluate (name : Address)
  deriving DecidableEq, Repr

namespace Command

variable (code : Array Word) (ip : Nat)

/-- Operand word `n` of the instruction at `ip`. -/
def word (n : Nat) : Except Fault Word := fetch code (ip + n)

/-- The address that operand word `n` names. -/
def address (n : Nat) : Except Fault Address := do
  let word ← word code ip n
  match Address.decode? word with
  | some address => return address
  | none => throw (.malformedOperand word (ip + n))

/-- The word of a vocabulary with the given code. -/
def oneWithCode {α : Type} [Vocabulary α] (code : Word) (fault : Nat → Fault) : Except Fault α :=
  match Vocabulary.ofCode? code.toNat with
  | some word => .ok word
  | none => .error (fault code.toNat)

/-- The point operation of an instruction. -/
def pointOp (instruction : Instruction) : Except Fault PointOp :=
  match PointOp.ofInstruction? instruction with
  | some op => .ok op
  | none => .error (.noOperation instruction)

/-- The command of the instruction at `ip`. -/
def decode (instruction : Instruction) : Except Fault Command := do
  match instruction.opcode with
  | .null => return .nothing
  | .halt => return .halt
  | .reset => return .discard
  | .clearMask => return .clearMask
  | .generateMask => return .generateMask (← address code ip 1)
  | .invertMask => return .invertMask
  | .jump condition => return .jump condition (code[ip + 1]?.map UInt32.toNat)
  | .transform | .arithmetic _ | .test _ =>
    let op ← pointOp instruction
    return .compute op none (← address code ip 1) (← address code ip 2) (← address code ip 3)
  | .negate | .promote =>
    let op ← pointOp instruction
    let result ← address code ip 1
    let operand ← address code ip 2
    return .compute op none result operand operand
  | .convert =>
    let op ← pointOp instruction
    let result ← address code ip 1
    let operand ← address code ip 2
    let type : ElementType ← oneWithCode (← word code ip 3) (.unknownType instruction)
    if type.components ≠ op.width then
      throw (.cannotProduce instruction type)
    return .compute op (some type) result operand operand
  | .assign _ =>
    match Update.ofInstruction? instruction with
    | some update => return .assign update (← address code ip 1) (← address code ip 2)
    | none => throw (.noOperation instruction)
  | .call =>
    let function : Builtin ← oneWithCode (← word code ip 1) .unknownFunction
    let result ← address code ip 2
    let count := (← word code ip 3).toNat
    let (least, most) := function.arity
    if count < least ∨ most < count then
      throw (.argumentCount function count)
    let arguments ← (List.range count).mapM fun n => address code ip (4 + n)
    return .call function result arguments
  | .evaluate => return .evaluate (← address code ip 1)

end Command

end Shading
