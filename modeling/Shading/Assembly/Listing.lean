import Shading.Code.Walk
import Shading.Shader

namespace Shading

/-!
# Listings

A listing is assembly text for a shader: its declarations, then its instructions, with a label at
each place that a jump leads to.  Code that cannot be decoded is not listed; a comment says where it
breaks off.
-/

/-- The literal of a constant or default. -/
def Value.literal (value : Value) : Except Fault String :=
  if value.type = .string then
    return "\"" ++ (← value.string) ++ "\""
  else
    return String.intercalate ", " (value.floats.toList.map floatText)

/-- The declaration of a symbol. -/
def Symbol.declaration (symbol : Symbol) : Except Fault String := do
  let kind := Vocabulary.name symbol.kind
  let declaration := s!".{kind} {symbol.storage} {symbol.type} {symbol.name}"
  match symbol.default with
  | some value => return declaration ++ " " ++ (← value.literal)
  | none => return declaration

namespace Shader

variable (shader : Shader)

/-- The directives before the code. -/
def declarations : Except Fault (List String) := do
  let kind := Vocabulary.name shader.kind
  let symbols ← shader.symbols.symbols.toList.mapM Symbol.declaration
  let constants ← shader.constants.toList.mapM fun value =>
    return s!".constant {value.type} " ++ (← value.literal)
  return s!".shader {kind} {shader.name}" :: symbols ++ constants

/-- An operand word as an address: a symbol by its name if it has one, a word that names nothing in
    hexadecimal. -/
def addressText (word : Word) : String :=
  match Address.decode? word with
  | some (.symbol i) => "@" ++ (shader.symbols.name? i).getD i.repr
  | some address => address.text
  | none => hex 8 word.toNat

/-- The name of the vocabulary's word with the low byte of `word` as code, else the number. -/
def codeText (α : Type) [Vocabulary α] (word : Word) : String :=
  match (Vocabulary.ofCode? (word.toNat % 256) : Option α) with
  | some name => Vocabulary.name name
  | none => word.toNat.repr

def labelText (offset : Nat) : String := "L" ++ offset.repr

/-- The operand word `n` of the instruction at `ip`. -/
def operandWord (ip n : Nat) : Except Fault Word := fetch shader.code (ip + n)

/-- The `count` addresses from operand word `first` on. -/
def addressTexts (ip first count : Nat) : Except Fault (List String) :=
  let start := ip + first
  if start + count ≤ shader.code.size then
    .ok ((shader.code.extract start (start + count)).toList.map shader.addressText)
  else
    .error .outOfRange

/-- The operands of the instruction at `ip`. -/
def operandTexts (ip : Nat) (opcode : Opcode) : Except Fault (List String) := do
  match opcode with
  | .jump _ => return [labelText (← shader.operandWord ip 1).toNat]
  | .call =>
    let function := codeText Builtin (← shader.operandWord ip 1)
    let count := (← shader.operandWord ip 3).toNat
    let result ← shader.addressTexts ip 2 1
    return function :: result ++ (← shader.addressTexts ip 4 count)
  | .convert =>
    let addresses ← shader.addressTexts ip 1 2
    return addresses ++ [codeText ElementType (← shader.operandWord ip 3)]
  | _ => shader.addressTexts ip 1 (opcode.operandCount?.getD 0)

def instructionText (ip : Nat) (instruction : Instruction) : Except Fault String := do
  match ← shader.operandTexts ip instruction.opcode with
  | [] => return "  " ++ instruction.text
  | operands => return "  " ++ instruction.text ++ " " ++ String.intercalate ", " operands

/-- The offsets that jumps lead to. -/
def targets (instructions : List (Nat × Instruction)) : Except Fault (List Nat) :=
  (instructions.filter fun (_, instruction) => instruction.opcode.isJump).mapM fun (ip, _) =>
    return (← shader.operandWord ip 1).toNat

/-- The label of a place, if a jump leads there. -/
def labelLine (targets : List Nat) (offset : Nat) : List String :=
  if targets.contains offset then [labelText offset ++ ":"] else []

def instructionLines (instructions : List (Nat × Instruction)) : Except Fault (List String) := do
  let targets ← shader.targets instructions
  let lines ← instructions.mapM fun (ip, instruction) =>
    return labelLine targets ip ++ [← shader.instructionText ip instruction]
  return lines.flatten ++ labelLine targets shader.code.size

/-- The shader as assembly text. -/
def listing : Except Fault String := do
  let declarations ← shader.declarations
  let walk ← walk shader.code
  let code ← match walk.stop with
    | some (ip, error) => pure [s!"; {error.message} at offset {ip}"]
    | none => shader.instructionLines walk.instructions
  return String.join ((declarations ++ code).map (· ++ "\n"))

end Shader

end Shading
