import Shading.Proofs.Operations

namespace Shading

/-!
# Places of arguments and operands

A directive takes its arguments, and an operation its operands, by the places they stand at: the default
of a symbol is what follows the third argument, and the arguments of a call follow its second operand.
Here the assembler is written so that it would fault at a place there is not.  It never does, because
each place is looked at only after a check that there are so many.

* `slice`, `groups` — parts of a list, with a fault if there are no such parts;
* `Strict.directive`, `Strict.emit` — directives and operations that take things by their places;
* `Strict.finish` — jumps whose operands are filled in by their offsets;
* `Strict.assemble_eq` — all of it is what the assembler does.
-/

variable {α : Type}

/-- The entries from one place up to another. -/
def slice (xs : List α) (first last : Nat) : Except Fault (List α) :=
  if first ≤ last ∧ last ≤ xs.length then .ok ((xs.take last).drop first) else .error .outOfRange

/-- A list cut into groups, which must not be empty. -/
def groups (width : Nat) (xs : List α) : Except Fault (List (List α)) :=
  if width = 0 then .error .outOfRange else .ok (inGroups width xs)

theorem slice_from {xs : List α} {first : Nat} (h : first ≤ xs.length) :
    slice xs first xs.length = .ok (xs.drop first) := by
  rw [slice, if_pos ⟨h, Nat.le_refl _⟩, List.take_length]

theorem slice_upTo {xs : List α} {last : Nat} (h : last ≤ xs.length) :
    slice xs 0 last = .ok (xs.take last) := by
  rw [slice, if_pos ⟨Nat.zero_le _, h⟩, List.drop_zero]

namespace Strict

/-- A result that does not fault, among those that may. -/
def checked {ε : Type} (result : Except ε α) : Except (Failure ε) α := result.mapError .error

/-! ### Directives -/

/-- The value that numbers make: one of them for all components, or as many as there are. -/
def literal (type : ElementType) (numbers : List Float32) : Except (Failure DirectiveError) Value :=
  if type.isTriple ∧ numbers.length = 1 then do
    let x ← fetch numbers.toArray 0
    return Value.ofNumbers type [x, x, x]
  else if type ≠ .string ∧ numbers.length = type.components then
    return Value.ofNumbers type (← slice numbers 0 type.components)
  else
    throw (.error (.wrongCount type numbers.length))

def default? (type : ElementType) : List Token → Except (Failure DirectiveError) (Option Value)
  | [] => .ok none
  | tokens =>
    match type, tokens with
    | .string, [.quoted text] => .ok (some (Value.uniformString text))
    | _, _ => do return some (← literal type (← checked (Draft.numbers tokens)))

def symbol (kind : SymbolKind) (arguments : List Token) : Except (Failure DirectiveError) Symbol := do
  let storage ← checked (Draft.oneAt arguments 0 .storage)
  let type ← checked (Draft.oneAt arguments 1 .type)
  let name ← checked (Draft.wordAt arguments 2 .symbolName)
  let defaults ← slice arguments 3 arguments.length
  return ⟨name, kind, type, storage, ← default? type defaults⟩

def quotedText : Token → Except DirectiveError Value
  | .quoted text => .ok (Value.uniformString text)
  | _ => .error .unquoted

def constantList (arguments : List Token) : Except (Failure DirectiveError) (List Value) := do
  let type : ElementType ← checked (Draft.oneAt arguments 0 .type)
  let literals ← slice arguments 1 arguments.length
  if type = .string then
    checked (literals.mapM quotedText)
  else
    let numbers ← checked (Draft.numbers literals)
    let elements ← groups type.components numbers
    if numbers.isEmpty ∨ numbers.length % type.components ≠ 0 then
      throw (.error (.brokenElements numbers.length type))
    elements.mapM (literal type)

/-- What is wrong with a directive, as an error of its line. -/
def asCause (result : Except (Failure DirectiveError) α) : Except (Failure AssemblyCause) α :=
  result.mapError fun
    | .fault fault => .fault fault
    | .error error => .error (.invalidDirective error)

/-- Only declarations and constants take arguments by the places behind some other. -/
def directive (draft : Draft) (name : String) (arguments : List Token) :
    Except (Failure AssemblyCause) Draft :=
  match (Vocabulary.ofName? name : Option SymbolKind) with
  | some kind => do
    let symbol ← asCause (symbol kind arguments)
    match draft.symbols.insert? symbol with
    | some symbols => return { draft with symbols := symbols }
    | none => throw (.error (.redefinition symbol.name))
  | none =>
    if name = "constant" then do
      let values ← asCause (constantList arguments)
      return { draft with constants := draft.constants ++ values }
    else
      checked (draft.directive name arguments)

/-! ### Operations -/

/-- The slots after the instruction word.  A call has two operands before its arguments. -/
def operandSlots (draft : Draft) (line : Nat) (opcode : Opcode) (operands : List Operand) :
    Except (Failure AssemblyCause) (List Slot) :=
  match opcode with
  | .jump _ => do
    let target ← fetch operands.toArray 0
    return [.target (← checked (Draft.nameOf target .label)) line]
  | .call => do
    let function : Builtin ← checked (Draft.oneOf (← fetch operands.toArray 0) .function)
    let arguments ← slice operands 2 operands.length
    let (least, most) := function.arity
    if arguments.length < least then
      throw (.error (.wrongArity .call (least + 2) operands.length))
    if most < arguments.length then
      throw (.error (.wrongArity .call (most + 2) operands.length))
    let result ← draft.addressWord (← fetch operands.toArray 1)
    let words ← draft.addressSlots arguments
    return .word (UInt32.ofNat (Vocabulary.code function)) :: .word result ::
      .word (UInt32.ofNat arguments.length) :: words
  | .convert => do
    let addresses ← draft.addressSlots (← slice operands 0 2)
    let type : ElementType ← checked (Draft.oneOf (← fetch operands.toArray 2) .type)
    return addresses ++ [.word (UInt32.ofNat (Vocabulary.code type))]
  | _ => draft.addressSlots operands

def emit (draft : Draft) (line : Nat) (mnemonic : String) (key : Option String)
    (operands : List Operand) : Except (Failure AssemblyCause) (List Slot) :=
  match (Vocabulary.ofName? mnemonic : Option Opcode) with
  | none => throw (.error (.notAnOperation mnemonic))
  | some opcode => do
    let key ← checked (Draft.readKey opcode key)
    let expected := opcode.operandCount?.getD (max operands.length 2)
    if operands.length ≠ expected then
      throw (.error (.wrongArity opcode expected operands.length))
    return .word (Instruction.encode ⟨opcode, key⟩) :: (← operandSlots draft line opcode operands)

/-! ### Lines and labels -/

def addStatement (draft : Draft) (line : Nat) : Statement → Except (Failure AssemblyCause) Draft
  | .directive name arguments => directive draft name arguments
  | .operation mnemonic key operands => do
    let slots ← emit draft line mnemonic key operands
    let temporaries := (operands.map Draft.temporariesFor).foldl max draft.temporaries
    return { draft with code := draft.code ++ slots, temporaries := temporaries }

def addLine (draft : Draft) (number : Nat) (text : List Char) :
    Except (Failure AssemblyError) Draft :=
  match Line.parse? (beforeComment text) with
  | none => throw (.error ⟨number, .unreadable (String.ofList (trimChars text))⟩)
  | some line => Draft.onLine number do
    let draft ← match line.label with
      | some label => checked (draft.mark label)
      | none => pure draft
    match line.statement with
    | some statement => addStatement draft number statement
    | none => return draft

/-- The operand of a jump that waits for its label. -/
structure Fixup where
  offset : Nat
  label : String
  line : Nat

/-- The fixups of slots that begin at an offset. -/
def fixupsFrom (offset : Nat) : List Slot → List Fixup
  | [] => []
  | .word _ :: slots => fixupsFrom (offset + 1) slots
  | .target label line :: slots => ⟨offset, label, line⟩ :: fixupsFrom (offset + 1) slots

/-- The word in a slot before labels are resolved. -/
def firstWord : Slot → Word
  | .word word => word
  | .target _ _ => 0

/-- Fills in the operand of a jump. -/
def patch (draft : Draft) (code : Array Word) (fixup : Fixup) :
    Except (Failure AssemblyError) (Array Word) :=
  match draft.labels.find? fixup.label with
  | some target => store code fixup.offset (UInt32.ofNat target)
  | none => throw (.error ⟨fixup.line, .unknownLabel fixup.label⟩)

def finish (draft : Draft) : Except (Failure AssemblyError) Shader := do
  let slots := draft.code.toList
  let code ← (fixupsFrom 0 slots).foldlM (patch draft) (slots.map firstWord).toArray
  return {
    kind := draft.kind
    name := draft.name
    code := code
    constants := draft.constants
    symbols := draft.symbols
    temporaries := draft.temporaries }

/-- The shader that a text describes, with a fault wherever a place is taken that there is not. -/
def assemble (text : String) : Except (Failure AssemblyError) Shader := do
  let lines := (splitLines text.toList).zipIdx 1
  let draft ← lines.foldlM (fun draft line => addLine draft line.2 line.1) Draft.new
  finish draft

/-! ### No place is missing -/

section Failures

variable {β ε : Type}

@[simp] theorem lift_ok_bind (a : α) (f : α → Except (Failure ε) β) :
    (liftM (Except.ok a : Except Fault α) >>= f) = f a := rfl

theorem checked_bind (x : Except ε α) (f : α → Except ε β) :
    checked (x >>= f) = checked x >>= fun a => checked (f a) := by
  cases x <;> rfl

theorem checked_pure (a : α) : checked (pure a : Except ε α) = pure a := rfl

theorem checked_mapM (f : α → Except ε β) (xs : List α) :
    checked (xs.mapM f) = xs.mapM fun x => checked (f x) := by
  induction xs with
  | nil => rfl
  | cons x xs ih => simp only [List.mapM_cons, checked_bind, checked_pure, ih]

end Failures

theorem literal_eq (type : ElementType) (numbers : List Float32) :
    literal type numbers = checked (Draft.literal type numbers) := by
  by_cases hone : type.isTriple = true ∧ numbers.length = 1
  · obtain ⟨htriple, hlength⟩ := hone
    obtain ⟨x, rfl⟩ := List.length_eq_one_iff.mp hlength
    rw [literal, if_pos ⟨htriple, rfl⟩]
    unfold Draft.literal
    rw [htriple]
    rfl
  · have hwhole : Draft.literal type numbers =
        if type ≠ .string ∧ numbers.length = type.components then .ok (Value.ofNumbers type numbers)
        else .error (.wrongCount type numbers.length) := by
      unfold Draft.literal
      dsimp only
      split
      next htriple => exact absurd ⟨htriple, rfl⟩ hone
      next => rfl
    rw [literal, if_neg hone, hwhole]
    by_cases hcount : type ≠ .string ∧ numbers.length = type.components
    · rw [if_pos hcount, if_pos hcount, slice_upTo hcount.2.ge, ← hcount.2, List.take_length]
      rfl
    · rw [if_neg hcount, if_neg hcount]
      rfl

theorem default?_eq (type : ElementType) (tokens : List Token) :
    default? type tokens = checked (Draft.default? type tokens) := by
  unfold default? Draft.default?
  split
  next => rfl
  next =>
    split
    next => rfl
    next => simp only [checked_bind, checked_pure, literal_eq]

/-- A word is only found at a place of the list. -/
theorem lt_of_wordAt {arguments : List Token} {n : Nat} {part : DirectivePart} {name : String}
    (h : Draft.wordAt arguments n part = .ok name) : n < arguments.length := by
  unfold Draft.wordAt at h
  split at h
  next hword => exact (List.getElem?_eq_some_iff.mp hword).1
  next => cases h

theorem symbol_eq (kind : SymbolKind) (arguments : List Token) :
    symbol kind arguments = checked (Draft.symbol kind arguments) := by
  unfold symbol Draft.symbol
  simp only [checked_bind, checked_pure]
  refine bind_congr fun storage => bind_congr fun type => bind_congr_ok fun name hname => ?_
  -- the third argument has been found, so there is a place behind it
  have hthree : 3 ≤ arguments.length := lt_of_wordAt (mapError_eq_ok.mp hname)
  rw [slice_from hthree, lift_ok_bind, default?_eq]

theorem components_ne_zero {type : ElementType} (h : type ≠ .string) : type.components ≠ 0 := by
  cases type <;> simp_all [ElementType.components]

theorem constantList_eq (arguments : List Token) :
    constantList arguments = checked (Draft.constantList arguments) := by
  unfold constantList Draft.constantList
  rw [checked_bind]
  refine bind_congr_ok fun type htype => ?_
  have hone : 1 ≤ arguments.length := by
    obtain ⟨name, hname, -⟩ := bind_eq_ok.mp (mapError_eq_ok.mp htype)
    exact lt_of_wordAt hname
  rw [slice_from hone, lift_ok_bind]
  split
  next => rfl
  next hstring =>
    rw [checked_bind]
    refine bind_congr fun numbers => ?_
    have hgroups : groups type.components numbers = .ok (inGroups type.components numbers) :=
      if_neg (components_ne_zero hstring)
    rw [hgroups, lift_ok_bind]
    have hliteral : literal type = fun numbers => checked (Draft.literal type numbers) :=
      funext (literal_eq type)
    dsimp only
    split
    next => rfl
    next => rw [hliteral, checked_mapM]

theorem asCause_checked (x : Except DirectiveError α) :
    asCause (checked x) = checked (x.mapError .invalidDirective) := by
  cases x <;> rfl

theorem directive_eq (draft : Draft) (name : String) (arguments : List Token) :
    directive draft name arguments = checked (draft.directive name arguments) := by
  unfold directive
  cases hkind : (Vocabulary.ofName? name : Option SymbolKind) with
  | some kind =>
    unfold Draft.directive
    rw [hkind]
    dsimp only
    rw [symbol_eq, asCause_checked, checked_bind]
    refine bind_congr fun symbol => ?_
    cases draft.symbols.insert? symbol <;> rfl
  | none =>
    dsimp only
    split
    next hname =>
      subst hname
      unfold Draft.directive
      rw [hkind]
      dsimp only
      rw [constantList_eq, asCause_checked]
      cases Draft.constantList arguments <;> rfl
    next => rfl

/-- An operation has as many operands as are taken from it. -/
theorem operandSlots_eq {opcode : Opcode} {operands : List Operand} (draft : Draft) (line : Nat)
    (hcount : operands.length = opcode.operandCount?.getD (max operands.length 2)) :
    operandSlots draft line opcode operands = draft.operandSlots line opcode operands := by
  obtain hplain | ⟨condition, target, rfl, rfl⟩ | ⟨function, result, arguments, rfl, rfl⟩ |
    ⟨result, source, type, rfl, rfl⟩ := Opcode.operands_cases hcount
  · rw [Draft.operandSlots_plain hplain]
    cases opcode <;> first | rfl | cases hplain
  · rfl
  · have hslice : slice (function :: result :: arguments) 2 (function :: result :: arguments).length
        = .ok arguments := slice_from (by simp)
    unfold operandSlots
    rw [hslice]
    rfl
  · rfl

theorem emit_eq (draft : Draft) (line : Nat) (mnemonic : String) (key : Option String)
    (operands : List Operand) :
    emit draft line mnemonic key operands = draft.emit line mnemonic key operands := by
  unfold emit Draft.emit
  cases (Vocabulary.ofName? mnemonic : Option Opcode) with
  | none => rfl
  | some opcode =>
    dsimp only
    rw [pure_bind]
    refine bind_congr (m := Except _) fun key => ?_
    split
    next => rfl
    next hcount => rw [operandSlots_eq draft line (Decidable.not_not.mp hcount)]

theorem addStatement_eq (draft : Draft) (line : Nat) (statement : Statement) :
    addStatement draft line statement = draft.addStatement line statement := by
  cases statement with
  | directive name arguments => exact directive_eq draft name arguments
  | operation mnemonic key operands =>
    rw [addStatement, emit_eq]
    rfl

theorem addLine_eq (draft : Draft) (number : Nat) (text : List Char) :
    addLine draft number text = draft.addLine number text := by
  unfold addLine Draft.addLine
  cases Line.parse? (beforeComment text) with
  | none => rfl
  | some line =>
    obtain ⟨label, statement⟩ := line
    simp only [addStatement_eq]
    rfl

/-- The offsets of the fixups are those of the jumps, so each is filled in where its jump stands. -/
theorem foldlM_patch (draft : Draft) (done : List Word) (slots : List Slot) :
    (fixupsFrom done.length slots).foldlM (patch draft) (done ++ slots.map firstWord).toArray =
      (fun words => (done ++ words).toArray) <$> checked (slots.mapM draft.resolve) := by
  -- by induction on what is left: the words before it are final
  induction slots generalizing done with
  | nil => rfl
  | cons slot slots ih =>
    -- a slot that is resolved to a word goes to the words before
    have hstep : ∀ word, draft.resolve slot = .ok word →
        (fixupsFrom (done.length + 1) slots).foldlM (patch draft)
          (done ++ word :: slots.map firstWord).toArray =
        (fun words => (done ++ words).toArray) <$> checked ((slot :: slots).mapM draft.resolve) := by
      intro word hword
      have ih := ih (done ++ [word])
      rw [List.length_append, List.length_singleton] at ih
      rw [List.append_cons, ih, List.mapM_cons, hword]
      cases slots.mapM draft.resolve with
      | error e => rfl
      | ok words => exact congrArg Except.ok (by simp)
    cases slot with
    | word word => exact hstep word rfl
    | target label line =>
      rw [fixupsFrom, List.foldlM_cons]
      unfold patch
      cases hlabel : draft.labels.find? label with
      | none =>
        rw [List.mapM_cons, Draft.resolve, hlabel]
        rfl
      | some target =>
        have hword : draft.resolve (.target label line) = .ok (UInt32.ofNat target) := by
          rw [Draft.resolve, hlabel]
        have hstore : store (done ++ 0 :: slots.map firstWord).toArray done.length
            (UInt32.ofNat target) = .ok (done ++ UInt32.ofNat target :: slots.map firstWord).toArray := by
          simp [store]
        rw [← hstep _ hword]
        simp only [List.map_cons, firstWord]
        rw [hstore]
        rfl

theorem finish_eq (draft : Draft) : finish draft = checked draft.finish := by
  have hpatch := foldlM_patch draft [] draft.code.toList
  unfold finish Draft.finish
  dsimp only
  rw [checked_bind]
  simp only [List.length_nil, List.nil_append] at hpatch
  rw [hpatch, bind_map_left]
  rfl

/-- **Places.**  The assembler takes no argument, operand or word of code by a place there is not. -/
theorem assemble_eq (text : String) : assemble text = Shading.assemble text := by
  unfold assemble Shading.assemble
  simp only [addLine_eq, finish_eq]
  rfl

end Strict

end Shading
