import Shading.Assembly.Error
import Shading.NameMap
import Shading.Shader
import Shading.Text.Lines

namespace Shading

/-!
# Assembling

A shader is drafted line by line.  In a draft the operand of a jump is still a label; when all lines
are read, each label becomes the number of code words before the place it marks.

* `Draft.directive`, `Draft.emit` — what a directive declares and the words an operation becomes.
* `Draft.addLine` — a whole line.
* `Draft.finish` — labels become offsets.
* `assemble` — a text becomes a shader.
-/

/-- A place of unfinished code. -/
inductive Slot
  | word (word : Word)
  /-- The target of a jump on the given line. -/
  | target (label : String) (line : Nat)
  deriving DecidableEq, Repr

/-- A shader in the making. -/
structure Draft where
  kind : ShaderKind
  name : String
  symbols : SymbolTable
  constants : Array Value
  code : Array Slot
  /-- The offsets that labels mark. -/
  labels : NameMap Nat
  temporaries : Nat

namespace Draft

/-- An empty surface shader called `main`. -/
def new : Draft where
  kind := .surface
  name := "main"
  symbols := SymbolTable.empty
  constants := #[]
  code := #[]
  labels := NameMap.empty
  temporaries := 0

/-! ### Directives -/

section Arguments

variable (arguments : List Token)

/-- The word at place `n`. -/
def wordAt (n : Nat) (part : DirectivePart) : Except DirectiveError String :=
  match arguments[n]? with
  | some (.word text) => .ok text
  | _ => .error (.missing part)

/-- The word at place `n`, which must belong to a vocabulary. -/
def oneAt {α : Type} [Vocabulary α] (n : Nat) (part : DirectivePart) : Except DirectiveError α := do
  let text ← wordAt arguments n part
  match Vocabulary.ofName? text with
  | some word => return word
  | none => throw (.notOne text part)

end Arguments

def numbers (tokens : List Token) : Except DirectiveError (List Float32) :=
  tokens.mapM fun
    | .number x => .ok x
    | .word text | .quoted text => .error (.notNumber text)

/-- The uniform value that numbers make: as many as the type has components, or one for all three
    components of a triple. -/
def literal (type : ElementType) (numbers : List Float32) : Except DirectiveError Value :=
  let value (floats : List Float32) : Value :=
    { Value.zeros type .uniform 1 with floats := floats.toArray }
  match type.isTriple, numbers with
  | true, [x] => .ok (value [x, x, x])
  | _, _ =>
    if type ≠ .string ∧ numbers.length = type.components then .ok (value numbers)
    else .error (.wrongCount type numbers.length)

/-- The default that the last arguments of a declaration give, if there are any. -/
def default? (type : ElementType) : List Token → Except DirectiveError (Option Value)
  | [] => .ok none
  | tokens =>
    match type, tokens with
    | .string, [.quoted text] => .ok (some (Value.uniformString text))
    | _, _ => do return some (← literal type (← numbers tokens))

/-- The symbol that a declaration describes. -/
def symbol (kind : SymbolKind) (arguments : List Token) : Except DirectiveError Symbol := do
  let storage ← oneAt arguments 0 .storage
  let type ← oneAt arguments 1 .type
  let name ← wordAt arguments 2 .symbolName
  return ⟨name, kind, type, storage, ← default? type (arguments.drop 3)⟩

/-- The constants that a directive lists, one after the other. -/
def constantList (arguments : List Token) : Except DirectiveError (List Value) := do
  let type : ElementType ← oneAt arguments 0 .type
  let literals := arguments.drop 1
  if type = .string then
    literals.mapM fun
      | .quoted text => .ok (Value.uniformString text)
      | _ => .error .unquoted
  else
    let numbers ← numbers literals
    if numbers.isEmpty ∨ numbers.length % type.components ≠ 0 then
      throw (.brokenElements numbers.length type)
    (inGroups type.components numbers).mapM (literal type)

variable (draft : Draft)

def directive (name : String) (arguments : List Token) : Except AssemblyCause Draft :=
  let checked {α : Type} (result : Except DirectiveError α) : Except AssemblyCause α :=
    result.mapError .invalidDirective
  match name, (Vocabulary.ofName? name : Option SymbolKind) with
  | _, some kind => do
    let symbol ← checked (symbol kind arguments)
    match draft.symbols.insert? symbol with
    | some symbols => return { draft with symbols := symbols }
    | none => throw (.redefinition symbol.name)
  | "shader", none => checked do
    let kind ← oneAt arguments 0 .shaderKind
    return { draft with kind := kind, name := ← wordAt arguments 1 .shaderName }
  | "constant", none => checked do
    return { draft with constants := draft.constants ++ (← constantList arguments) }
  | _, none => throw (.invalidDirective (.unknown name))

/-! ### Operations -/

/-- The address an operand names. -/
def address (operand : Operand) : Except AssemblyCause Address :=
  match operand with
  | .constant i =>
    if i < draft.constants.size then .ok (.constant i)
    else .error (.unknownSymbol (Address.constant i).text)
  | .temporary i => .ok (.temporary i)
  | .symbol i =>
    if i < draft.symbols.size then .ok (.symbol i)
    else .error (.unknownSymbol (Address.symbol i).text)
  | .symbolNamed name =>
    match draft.symbols.slot? name with
    | some slot => .ok (.symbol slot)
    | none => .error (.unknownSymbol name)
  | .word _ => .error (.unexpectedOperand .address operand)

/-- The operand word of an address. -/
def addressWord (operand : Operand) : Except (Failure AssemblyCause) Word := do
  match draft.address operand with
  | .error cause => throw (.error cause)
  | .ok address =>
    match address.encode? with
    | some word => return word
    | none => throw (.fault (.addressIndex address.index))

def addressSlots (operands : List Operand) : Except (Failure AssemblyCause) (List Slot) :=
  operands.mapM fun operand => return Slot.word (← draft.addressWord operand)

/-- The key of an operation: there is one exactly if the opcode requires it, and it has as many
    shapes as the opcode wants. -/
def readKey (opcode : Opcode) (key : Option String) : Except AssemblyCause Key :=
  match opcode.requiresKey, key with
  | false, none => .ok Key.none
  | false, some text => .error (.invalidKey text)
  | true, none => .error (.missingKey opcode)
  | true, some text =>
    match Key.parse? text with
    | some key =>
      if opcode.hasSingleShape = key.shape?.isSome then .ok key else .error (.invalidKey text)
    | none => .error (.invalidKey text)

/-- The name that must stand at a place. -/
def nameOf (operand : Operand) (part : OperandPart) : Except AssemblyCause String :=
  match operand with
  | .word name => .ok name
  | _ => .error (.unexpectedOperand part operand)

/-- The word of a vocabulary that must stand at a place. -/
def oneOf {α : Type} [Vocabulary α] (operand : Operand) (part : OperandPart) :
    Except AssemblyCause α := do
  match Vocabulary.ofName? (← nameOf operand part) with
  | some word => return word
  | none => throw (.unexpectedOperand part operand)

/-- The slots after the instruction word of an operation with the right number of operands. -/
def operandSlots (line : Nat) (opcode : Opcode) (operands : List Operand) :
    Except (Failure AssemblyCause) (List Slot) :=
  let checked {α : Type} (result : Except AssemblyCause α) : Except (Failure AssemblyCause) α :=
    result.mapError .error
  match opcode, operands with
  | .jump _, target :: _ => do
    return [.target (← checked (nameOf target .label)) line]
  | .call, function :: result :: arguments => do
    let function : Builtin ← checked (oneOf function .function)
    let count := arguments.length
    let (least, most) := function.arity
    if count < least then
      throw (.error (.wrongArity .call (least + 2) operands.length))
    if most < count then
      throw (.error (.wrongArity .call (most + 2) operands.length))
    let result ← draft.addressWord result
    let arguments ← draft.addressSlots arguments
    return .word (UInt32.ofNat (Vocabulary.code function)) :: .word result ::
      .word (UInt32.ofNat count) :: arguments
  | .convert, [result, source, type] => do
    let addresses ← draft.addressSlots [result, source]
    let type : ElementType ← checked (oneOf type .type)
    return addresses ++ [.word (UInt32.ofNat (Vocabulary.code type))]
  | _, _ => draft.addressSlots operands

/-- The slots that an operation becomes. -/
def emit (line : Nat) (mnemonic : String) (key : Option String) (operands : List Operand) :
    Except (Failure AssemblyCause) (List Slot) := do
  let opcode : Opcode ← match Vocabulary.ofName? mnemonic with
    | some opcode => pure opcode
    | none => throw (.error (.notAnOperation mnemonic))
  let key ← (readKey opcode key).mapError .error
  let expected := opcode.operandCount?.getD (max operands.length 2)
  if operands.length ≠ expected then
    throw (.error (.wrongArity opcode expected operands.length))
  return .word (Instruction.encode ⟨opcode, key⟩) :: (← draft.operandSlots line opcode operands)

/-- How many temporaries there must be for an operand to name one. -/
def temporariesFor : Operand → Nat
  | .temporary i => i + 1
  | _ => 0

/-! ### Lines -/

/-- Marks the present end of the code. -/
def mark (label : String) : Except AssemblyCause Draft :=
  if draft.labels.contains label then .error (.redefinition label)
  else .ok { draft with labels := draft.labels.insert label draft.code.size }

def addStatement (line : Nat) : Statement → Except (Failure AssemblyCause) Draft
  | .directive name arguments => (draft.directive name arguments).mapError .error
  | .operation mnemonic key operands => do
    let slots ← draft.emit line mnemonic key operands
    let temporaries := (operands.map temporariesFor).foldl max draft.temporaries
    return { draft with code := draft.code ++ slots, temporaries := temporaries }

/-- What a line adds: its label first, then its statement. -/
def addParsed (number : Nat) (line : Line) : Except (Failure AssemblyCause) Draft := do
  let draft ← match line.label with
    | some label => (draft.mark label).mapError .error
    | none => pure draft
  match line.statement with
  | some statement => draft.addStatement number statement
  | none => return draft

/-- Gives a cause its line. -/
def onLine {α : Type} (number : Nat) (result : Except (Failure AssemblyCause) α) :
    Except (Failure AssemblyError) α :=
  result.mapError fun
    | .fault fault => .fault fault
    | .error cause => .error ⟨number, cause⟩

/-- Reads the line of the given number. -/
def addLine (number : Nat) (text : List Char) : Except (Failure AssemblyError) Draft :=
  match Line.parse? (beforeComment text) with
  | some line => onLine number (draft.addParsed number line)
  | none => throw (.error ⟨number, .unreadable (String.ofList (trimChars text))⟩)

/-- The word that a slot becomes. -/
def resolve : Slot → Except AssemblyError Word
  | .word word => .ok word
  | .target label line =>
    match draft.labels.find? label with
    | some offset => .ok (UInt32.ofNat offset)
    | none => .error ⟨line, .unknownLabel label⟩

def finish : Except AssemblyError Shader := do
  let code ← draft.code.toList.mapM draft.resolve
  return {
    kind := draft.kind
    name := draft.name
    code := code.toArray
    constants := draft.constants
    symbols := draft.symbols
    temporaries := draft.temporaries }

end Draft

/-- The shader that a text describes. -/
def assemble (text : String) : Except (Failure AssemblyError) Shader := do
  let lines := (splitLines text.toList).zipIdx 1
  let draft ← lines.foldlM (fun draft (line, number) => draft.addLine number line) Draft.new
  draft.finish.mapError .error

end Shading
