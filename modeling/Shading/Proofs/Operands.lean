import Shading.Proofs.Encoding
import Shading.Proofs.Footprint
import Shading.Proofs.Upkeep

namespace Shading

/-!
# Operands are read before results are written

The instructions with a key compute from the values of their operands, so it does not matter which of
their addresses are the same.

* `Action.Effect` — what the written register holds in the end, from what it held and the operands;
* `Machine.step_keyed` — a step is that effect and nothing else;
* `Action.Effect.forget` — a result that goes to a temporary does not depend on what was there.
-/

namespace Opcode

theorem sourceCount_pos {opcode : Opcode} (h : opcode.requiresKey = true) :
    0 < opcode.sourceCount := by
  cases opcode <;> simp_all [requiresKey, sourceCount]

/-- Instructions with a key have a fixed length. -/
theorem instructionSize_of_requiresKey {opcode : Opcode} (h : opcode.requiresKey = true) :
    ∃ size, ∀ code ip, instructionSize code ip opcode = .ok size := by
  unfold instructionSize
  cases opcode with
  | transform | arithmetic | test | negate | assign | promote | convert =>
    exact ⟨_, fun _ _ => rfl⟩
  | _ => simp [requiresKey] at h

end Opcode

/-! ### Actions -/

/-- The command that does an action at the given addresses. -/
def Action.command (result first last : Address) : Action → Command
  | .compute op type => .compute op type result first last
  | .assign update => .assign update result first

/-- **Decoding.**  An instruction with a key is an action at the addresses that its operands name. -/
theorem Command.decode_keyed {code : Array Word} {ip : Nat} {instruction : Instruction}
    {command : Command} (hkey : instruction.opcode.requiresKey = true) :
    decode code ip instruction = .ok command ↔ ∃ action result first last,
      Action.Of code ip instruction action ∧ address code ip 1 = .ok result ∧
      address code ip 2 = .ok first ∧
      address code ip (1 + instruction.opcode.sourceCount) = .ok last ∧
      command = action.command result first last := by
  rw [decode_eq_ok]
  constructor
  · intro h
    cases h with
    | compute haction hresult hfirst hlast =>
      exact ⟨_, _, _, _, haction, hresult, hfirst, hlast, rfl⟩
    | assign haction htarget hsource =>
      obtain - | - | ⟨_, hupdate⟩ := haction
      obtain ⟨operator, hopcode⟩ := Update.opcode_of_ofInstruction? hupdate
      -- the only operand is both the first and the last
      have hlast : instruction.opcode.sourceCount = 1 := by rw [hopcode]; rfl
      exact ⟨_, _, _, _, .assign _ hupdate, htarget, hsource, by rwa [hlast], rfl⟩
    | _ => simp_all [Opcode.requiresKey]
  · rintro ⟨action, result, first, last, haction, hresult, hfirst, hlast, rfl⟩
    cases action with
    | compute op type => exact .compute haction hresult hfirst hlast
    | assign update => exact .assign haction hresult hfirst

/-! ### Effects -/

namespace Registers

variable {registers next : Registers} {masks : MaskStack} {points : Nat} {address : Address}
  {old value : Value} {constants : Array Value}

/-- What a register that held `old` holds once `value` is committed to it. -/
def Settles (masks : MaskStack) (points : Nat) (old value taken : Value) : Address → Prop
  | .constant _ => False
  | .symbol _ => Takes masks points old value taken
  | .temporary _ => taken = value

/-- The value that is computed into, for a register that holds `old`. -/
def claimed (old : Value) : Address → Value
  | .symbol _ => Value.empty
  | _ => old

theorem commit_eq_ok : registers.commit masks points address value = .ok next ↔
    ∃ old taken, registers.target address = .ok old ∧ Settles masks points old value taken address ∧
      registers.put address taken = .ok next := by
  cases address with
  | constant slot => simp [Settles]
  | symbol slot =>
    rw [commit_symbol_eq_ok]
    simp only [target, fetch_eq_ok, Settles, put_symbol]
    refine exists_congr fun old => exists_congr fun taken => and_congr_right fun hold => ?_
    have hlt := (Array.getElem?_eq_some_iff.mp hold).1
    rw [and_iff_right hlt]
  | temporary slot =>
    simp only [commit_temporary, target, fetch_eq_ok, Settles, put_temporary]
    constructor
    · rintro ⟨hlt, rfl⟩
      exact ⟨_, value, Array.getElem?_eq_getElem hlt, rfl, hlt, rfl⟩
    · rintro ⟨old, taken, -, rfl, hlt, rfl⟩
      exact ⟨hlt, rfl⟩

theorem claim_of_target (h : registers.target address = .ok old) :
    registers.claim address = .ok (claimed old address) := by
  cases address with
  | constant slot => exact h
  | symbol slot => rfl
  | temporary slot => exact h

theorem checkAliases_of_read {operands : List Address}
    (h : ∀ operand ∈ operands, ∃ value, registers.read constants operand = .ok value) :
    registers.checkAliases constants address operands = .ok () := by
  refine forM_eq_ok.mpr fun operand hoperand => ?_
  split
  next => exact discard_eq_ok.mpr (h operand hoperand)
  next => rfl

theorem exists_put (h : registers.target address = .ok old) (value : Value) :
    ∃ next, registers.put address value = .ok next := by
  cases address with
  | constant slot => cases h
  | symbol slot =>
    have hlt := (Array.getElem?_eq_some_iff.mp (fetch_eq_ok.mp h)).1
    exact ⟨_, put_symbol.mpr ⟨hlt, rfl⟩⟩
  | temporary slot =>
    have hlt := (Array.getElem?_eq_some_iff.mp (fetch_eq_ok.mp h)).1
    exact ⟨_, put_temporary.mpr ⟨hlt, rfl⟩⟩

theorem target_put (h : registers.put address value = .ok next) :
    next.target address = .ok value := by
  cases address with
  | constant slot => exact (put_constant.mp h).elim
  | symbol slot =>
    obtain ⟨hlt, rfl⟩ := put_symbol.mp h
    simp [target, hlt]
  | temporary slot =>
    obtain ⟨hlt, rfl⟩ := put_temporary.mp h
    simp [target, hlt]

end Registers

namespace Action

open Machine (shaped assignmentMask)

variable {masks : MaskStack} {points : Nat} {destination : Address} {old other a b taken : Value}

/-- What a register that held `old` holds after an action on the operands `a` and `b`. -/
inductive Effect (masks : MaskStack) (points : Nat) (destination : Address) (old a b taken : Value) :
    Action → Prop
  | compute (op : PointOp) (type : Option ElementType) (fitted : Value) (floats : Buffer)
      (hsuits : op.Suits points a b)
      (hfitted : (Registers.claimed old destination).ensure (type.getD (op.resultType a b)) op.storage
        (op.storage.size points) = .ok fitted)
      (hfloats : op.run fitted.floats a.floats b.floats points = .ok floats)
      (hsettles : Registers.Settles masks points old { fitted with floats := floats } taken
        destination) :
      Effect masks points destination old a b taken (.compute op type)
  | assign (update : Update) (written : Value) (mask : Option Mask) (floats : Buffer)
      (hsource : a.HasShape points update.source)
      (hwritten : shaped points update destination old a = .ok written)
      (hshape : written.HasShape points update.destination)
      (hmask : assignmentMask masks update = .ok mask)
      (hfloats : update.run written.floats a.floats mask points = .ok floats)
      (htaken : taken = { written with floats := floats }) :
      Effect masks points destination old a b taken (.assign update)

end Action

namespace Value

variable {value fitted fitted' : Value} {type : ElementType} {storage : Storage} {size : Nat}

/-- What the values of a machine are like: the floats of every element and no others, in the room
    there is, and text in strings only. -/
structure IsWhole (value : Value) : Prop where
  floats_size : value.floats.size = value.components * value.size
  room : 4 * value.floats.size < 0x8000000000000000
  text_eq : value.type ≠ .string → value.text = none

theorem IsWhole.ensure (h : value.IsWhole) (hfitted : value.ensure type storage size = .ok fitted) :
    fitted.IsWhole := by
  unfold Value.ensure at hfitted
  split at hfitted
  next => exact Except.ok.inj hfitted ▸ h
  next =>
    obtain ⟨hroom, rfl⟩ := allocate_eq_ok.mp hfitted
    exact ⟨Array.size_replicate, by rwa [zeros, Array.size_replicate], fun _ => rfl⟩

end Value

namespace PointOp

variable {op : PointOp} {points : Nat} {a b result result' out : Buffer}

theorem width_pos (op : PointOp) : 0 < op.width := by
  cases op with
  | arithmetic _ lhs _ => exact Nat.lt_of_lt_of_le (Update.width_pos lhs.width) (Nat.le_max_left _ _)
  | test => exact Nat.one_pos
  | transform => exact Nat.succ_pos 2
  | negate shape => exact Update.width_pos shape.width
  | copy result _ => exact Update.width_pos result.width

end PointOp

namespace Action

variable {code : Array Word} {ip : Nat} {instruction : Instruction} {masks : MaskStack}
  {points slot : Nat} {old other a b taken : Value} {op : PointOp} {type : Option ElementType}

theorem Of.yields (h : Of code ip instruction (.compute op type)) : op.Yields type := by
  cases h with
  | compute _ hop hopcode => exact (PointOp.fits_of_ofInstruction? hop).2 hopcode
  | convert _ _ _ _ _ _ _ hwidth => exact hwidth

end Action

namespace Machine

variable {σ : Type} {renderer : Renderer σ} {shader : Shader} {constants : Array Value}
  {machine next : Machine σ} {instruction : Instruction} {action : Action} {flow : Flow}

theorem compute_iff_effect {op : PointOp} {type : Option ElementType} {result first last : Address} :
    machine.compute constants instruction op type result first last = .ok next ↔
      ∃ old a b taken registers, machine.registers.target result = .ok old ∧
        machine.registers.read constants first = .ok a ∧
        machine.registers.read constants last = .ok b ∧
        Action.Effect machine.masks machine.points result old a b taken (.compute op type) ∧
        machine.registers.put result taken = .ok registers ∧
        next = { machine with registers := registers } := by
  rw [compute_eq_ok]
  constructor
  · rintro ⟨_, a, b, fitted, floats, registers, -, hclaim, ha, hb, hsuits, hfitted, hfloats,
      hcommit, rfl⟩
    obtain ⟨old, taken, hold, hsettles, hput⟩ := Registers.commit_eq_ok.mp hcommit
    rw [Registers.claim_of_target hold] at hclaim
    obtain rfl := Except.ok.inj hclaim
    exact ⟨old, a, b, taken, registers, hold, ha, hb,
      .compute op type fitted floats hsuits hfitted hfloats hsettles, hput, rfl⟩
  · rintro ⟨old, a, b, taken, registers, hold, ha, hb, heffect, hput, rfl⟩
    -- both operands can be read, so it does not matter whether one of them is the result
    have halias : machine.registers.checkAliases constants result [first, last] = .ok () := by
      refine Registers.checkAliases_of_read fun operand hoperand => ?_
      rcases List.mem_pair.mp hoperand with rfl | rfl
      · exact ⟨a, ha⟩
      · exact ⟨b, hb⟩
    cases heffect with
    | compute _ _ fitted floats hsuits hfitted hfloats hsettles =>
      exact ⟨_, a, b, fitted, floats, registers, halias, Registers.claim_of_target hold, ha, hb,
        hsuits, hfitted, hfloats, Registers.commit_eq_ok.mpr ⟨old, taken, hold, hsettles, hput⟩, rfl⟩

theorem assign_iff_effect {update : Update} {target source : Address} :
    machine.assign constants instruction update target source = .ok next ↔
      ∃ old a taken registers, machine.registers.target target = .ok old ∧
        machine.registers.read constants source = .ok a ∧
        Action.Effect machine.masks machine.points target old a a taken (.assign update) ∧
        machine.registers.put target taken = .ok registers ∧
        next = { machine with registers := registers } := by
  rw [assign_eq_ok]
  constructor
  · rintro ⟨old, a, written, mask, floats, registers, -, hold, ha, hsource, hwritten, hshape, hmask,
      hfloats, hput, rfl⟩
    exact ⟨old, a, _, registers, hold, ha,
      .assign update written mask floats hsource hwritten hshape hmask hfloats rfl, hput, rfl⟩
  · rintro ⟨old, a, taken, registers, hold, ha, heffect, hput, rfl⟩
    have halias : machine.registers.checkAliases constants target [source] = .ok () := by
      refine Registers.checkAliases_of_read fun operand hoperand => ?_
      rw [List.mem_singleton.mp hoperand]
      exact ⟨a, ha⟩
    cases heffect with
    | assign _ written mask floats hsource hwritten hshape hmask hfloats htaken =>
      subst htaken
      exact ⟨old, a, written, mask, floats, registers, halias, hold, ha, hsource, hwritten, hshape,
        hmask, hfloats, hput, rfl⟩

/-- The value that operand `n` of the instruction at the machine's offset has. -/
def operand (machine : Machine σ) (shader : Shader) (n : Nat) : Except Fault Value := do
  machine.registers.read shader.constants (← Command.address shader.code machine.ip (2 + n))

theorem operand_eq_ok {n : Nat} {value : Value} : machine.operand shader n = .ok value ↔
    ∃ address, Command.address shader.code machine.ip (2 + n) = .ok address ∧
      machine.registers.read shader.constants address = .ok value :=
  bind_eq_ok

theorem perform_action {result first last : Address}
    (hlast : ∀ update, action = .assign update → last = first) :
    machine.perform renderer shader instruction (action.command result first last)
        = .ok (flow, next) ↔
      flow = .next ∧ ∃ old a b taken registers, machine.registers.target result = .ok old ∧
        machine.registers.read shader.constants first = .ok a ∧
        machine.registers.read shader.constants last = .ok b ∧
        action.Effect machine.masks machine.points result old a b taken ∧
        machine.registers.put result taken = .ok registers ∧
        next = { machine with registers := registers } := by
  cases action with
  | compute op type =>
    simp only [Action.command, perform, bind_eq_ok, pure_eq_ok, Prod.mk.injEq, compute_iff_effect]
    constructor
    · rintro ⟨_, heffect, rfl, rfl⟩
      exact ⟨rfl, heffect⟩
    · rintro ⟨rfl, heffect⟩
      exact ⟨next, heffect, rfl, rfl⟩
  | assign update =>
    obtain rfl := hlast update rfl
    simp only [Action.command, perform, bind_eq_ok, pure_eq_ok, Prod.mk.injEq, assign_iff_effect]
    constructor
    · rintro ⟨_, ⟨old, a, taken, registers, hold, ha, heffect, hput, rfl⟩, rfl, rfl⟩
      exact ⟨rfl, old, a, a, taken, registers, hold, ha, ha, heffect, hput, rfl⟩
    · rintro ⟨rfl, old, a, b, taken, registers, hold, ha, hb, heffect, hput, rfl⟩
      obtain rfl := Except.ok.inj (ha.symm.trans hb)
      exact ⟨_, ⟨old, a, taken, registers, hold, ha, heffect, hput, rfl⟩, rfl, rfl⟩

/-- **Steps.**  An instruction with a key reads its operands and what its destination holds, and then
    writes the destination. -/
theorem step_keyed {word : Word} (hword : Instruction.decode word = .ok instruction)
    (hkey : instruction.opcode.requiresKey = true) :
    machine.step renderer shader word = .ok (flow, next) ↔
      flow = .next ∧ ∃ action destination old a b taken registers size,
        Action.Of shader.code machine.ip instruction action ∧
        Command.address shader.code machine.ip 1 = .ok destination ∧
        machine.registers.target destination = .ok old ∧
        machine.operand shader 0 = .ok a ∧
        machine.operand shader (instruction.opcode.sourceCount - 1) = .ok b ∧
        action.Effect machine.masks machine.points destination old a b taken ∧
        machine.registers.put destination taken = .ok registers ∧
        instructionSize shader.code machine.ip instruction.opcode = .ok size ∧
        next = { machine with
          ip := machine.ip + size, executed := machine.executed + 1, registers := registers } := by
  have hpos := Opcode.sourceCount_pos hkey
  have hplace : 2 + (instruction.opcode.sourceCount - 1) = 1 + instruction.opcode.sourceCount := by
    omega
  -- an assignment has one operand only
  have hlast : ∀ {action first last}, Action.Of shader.code machine.ip instruction action →
      Command.address shader.code machine.ip 2 = .ok first →
      Command.address shader.code machine.ip (1 + instruction.opcode.sourceCount) = .ok last →
      ∀ update, action = .assign update → last = first := by
    rintro action first last haction hfirst hlast update rfl
    cases haction with
    | assign _ hupdate =>
    obtain ⟨operator, hopcode⟩ := Update.opcode_of_ofInstruction? hupdate
    rw [hopcode] at hlast
    exact Except.ok.inj (hlast.symm.trans hfirst)
  rw [step_eq_ok]
  simp only [operand_eq_ok, hplace]
  constructor
  · rintro ⟨instruction', command, last, hinstruction, hcommand, hperform, hmoved⟩
    obtain rfl := Except.ok.inj (hword.symm.trans hinstruction)
    obtain ⟨action, destination, first, second, haction, hdestination, hfirst, hsecond, rfl⟩ :=
      (Command.decode_keyed hkey).mp hcommand
    obtain ⟨rfl, old, a, b, taken, registers, hold, ha, hb, heffect, hput, rfl⟩ :=
      (perform_action (hlast haction hfirst hsecond)).mp hperform
    simp only [moved, bind_eq_ok, pure_eq_ok] at hmoved
    obtain ⟨size, hsize, rfl⟩ := hmoved
    exact ⟨rfl, action, destination, old, a, b, taken, registers, size, haction, hdestination, hold,
      ⟨first, hfirst, ha⟩, ⟨second, hsecond, hb⟩, heffect, hput, hsize, rfl⟩
  · rintro ⟨rfl, action, destination, old, a, b, taken, registers, size, haction, hdestination, hold,
      ⟨first, hfirst, ha⟩, ⟨second, hsecond, hb⟩, heffect, hput, hsize, rfl⟩
    refine ⟨instruction, action.command destination first second,
      { machine with executed := machine.executed + 1, registers := registers }, hword, ?_, ?_, ?_⟩
    · exact (Command.decode_keyed hkey).mpr
        ⟨action, destination, first, second, haction, hdestination, hfirst, hsecond, rfl⟩
    · exact (perform_action (hlast haction hfirst hsecond)).mpr
        ⟨rfl, old, a, b, taken, registers, hold, ha, hb, heffect, hput, rfl⟩
    · simp only [moved, hsize]
      rfl

/-! ### The same operands elsewhere -/

/-- Another machine has before it the same instruction for the same register, and operands of the same
    values, wherever they are. -/
structure SameOperands (opcode : Opcode) (shader : Shader) (machine : Machine σ) (shader' : Shader)
    (machine' : Machine σ) : Prop where
  masks_eq : machine'.masks = machine.masks
  points_eq : machine'.points = machine.points
  result_eq : shader'.code[machine'.ip + 1]? = shader.code[machine.ip + 1]?
  type_eq : opcode = .convert → shader'.code[machine'.ip + 3]? = shader.code[machine.ip + 3]?
  operand_eq : ∀ n < opcode.sourceCount, machine'.operand shader' n = machine.operand shader n

/-- The destination takes the same from the same operands. -/
theorem SameOperands.step {shader' : Shader} {machine' : Machine σ} {word : Word}
    {destination : Address} {old a b taken : Value}
    (h : SameOperands instruction.opcode shader machine shader' machine')
    (hword : Instruction.decode word = .ok instruction)
    (hkey : instruction.opcode.requiresKey = true)
    (haction : Action.Of shader.code machine.ip instruction action)
    (hdestination : Command.address shader.code machine.ip 1 = .ok destination)
    (ha : machine.operand shader 0 = .ok a)
    (hb : machine.operand shader (instruction.opcode.sourceCount - 1) = .ok b)
    (hold : machine'.registers.target destination = .ok old)
    (heffect : action.Effect machine.masks machine.points destination old a b taken) :
    ∃ after, machine'.step renderer shader' word = .ok (.next, after) ∧
      after.registers.target destination = .ok taken := by
  have hpos := Opcode.sourceCount_pos hkey
  obtain ⟨size, hsize⟩ := Opcode.instructionSize_of_requiresKey hkey
  obtain ⟨registers, hput⟩ := Registers.exists_put hold taken
  have hdestination' : Command.address shader'.code machine'.ip 1 = .ok destination := by
    rw [Command.address_eq_ok, h.result_eq]
    exact Command.address_eq_ok.mp hdestination
  refine ⟨_, (step_keyed hword hkey).mpr ⟨rfl, action, destination, old, a, b, taken, registers, size,
    haction.congr h.type_eq, hdestination', hold, ?_, ?_, ?_, hput, hsize _ _, rfl⟩, ?_⟩
  · rw [h.operand_eq 0 hpos, ha]
  · rw [h.operand_eq _ (by omega), hb]
  · rw [h.masks_eq, h.points_eq]
    exact heffect
  · exact Registers.target_put hput

/-- The operands of an instruction are its first and its last. -/
theorem exists_operands {opcode : Opcode} {a b : Value} (hkey : opcode.requiresKey = true)
    (ha : machine.operand shader 0 = .ok a)
    (hb : machine.operand shader (opcode.sourceCount - 1) = .ok b) :
    ∃ values, (List.range opcode.sourceCount).mapM (machine.operand shader) = .ok values := by
  cases opcode with
  | negate | promote | convert | assign =>
    show ∃ values, [0].mapM (machine.operand shader) = .ok values
    simp [ha]
  | transform | arithmetic | test =>
    have hb : machine.operand shader 1 = .ok b := hb
    show ∃ values, [0, 1].mapM (machine.operand shader) = .ok values
    simp [ha, hb]
  | _ => cases hkey

end Machine

namespace Machine

variable {σ : Type} {renderer : Renderer σ} {shader : Shader} {machine next : Machine σ}
  {instruction : Instruction} {flow : Flow} {values : List Value}

end Machine

/-- A machine over two points with the given temporaries. -/
def twoPointsWith (temporaries : Array Value) : Machine Unit where
  config := {}
  ip := 0
  width := 2
  height := 1
  masks := MaskStack.base 2
  registers := ⟨#[], temporaries⟩
  bound := #[]
  executed := 0
  world := ()

end Shading
