import Shading.Machine.Run
import Shading.Proofs.Kernels

namespace Shading

/-!
# What a command does

Each command that changes registers, described by when it succeeds and what it leaves.  Later proofs
about the machine start from these descriptions.

* `Registers.commit_symbol_eq_ok` — the three ways in which a symbol takes a result;
* `Machine.compute_eq_ok`, `Machine.assign_eq_ok` — the commands;
* `Machine.Performed`, `Machine.step_eq_ok` — all commands, and the instructions they stand for.
-/

/-! ### Masks -/

namespace MaskStack

variable {masks next : MaskStack}

theorem top_eq_ok {mask : Mask} : masks.top = .ok mask ↔ masks.entries[0]? = some mask := by
  obtain ⟨points, entries⟩ := masks
  cases entries <;> simp [top]

/-- Whether point `k` is active under a predicate inside the mask `top`. -/
def selected (predicate : Value) (top : Mask) (k : Nat) : Except Fault Bool := do
  if ← fetch top k then
    return (← predicate.float k) != 0
  else
    return false

theorem selected_eq_ok {predicate : Value} {top : Mask} {k : Nat} {b : Bool} :
    selected predicate top k = .ok b ↔ top[k]? = some false ∧ b = false ∨
      top[k]? = some true ∧ ∃ x, predicate.float k = .ok x ∧ b = (x != 0) := by
  unfold selected
  simp only [bind_eq_ok, fetch_eq_ok]
  constructor
  · rintro ⟨active, hactive, hb⟩
    cases active with
    | false => exact .inl ⟨hactive, (pure_eq_ok.mp hb).symm⟩
    | true =>
      obtain ⟨x, hx, hb⟩ := bind_eq_ok.mp hb
      exact .inr ⟨hactive, x, hx, (pure_eq_ok.mp hb).symm⟩
  · rintro (⟨hactive, rfl⟩ | ⟨hactive, x, hx, rfl⟩)
    · exact ⟨false, hactive, rfl⟩
    · exact ⟨true, hactive, by simp [hx]⟩

/-- **Entering a conditional.**  The new mask is tabulated from the top one and the predicate. -/
theorem generate_eq_ok {predicate : Value} :
    masks.generate predicate = .ok next ↔
      predicate.components = 1 ∧
      (predicate.isVarying = true → predicate.size = masks.points) ∧
      ∃ top mask, masks.top = .ok top ∧
        tabulate masks.points (selected predicate top) = .ok mask ∧
        next = { masks with entries := mask :: masks.entries } := by
  unfold generate
  by_cases hcomponents : predicate.components = 1
  · rw [if_neg (by simpa using hcomponents)]
    by_cases hsize : predicate.isVarying = true ∧ predicate.size ≠ masks.points
    · simp [hsize]
    · rw [if_neg hsize]
      have hsize : predicate.isVarying = true → predicate.size = masks.points := by
        simpa using hsize
      simp only [bind_eq_ok, pure_eq_ok]
      constructor
      · rintro ⟨top, htop, mask, hmask, rfl⟩
        exact ⟨hcomponents, hsize, top, mask, htop, hmask, rfl⟩
      · rintro ⟨-, -, top, mask, htop, hmask, rfl⟩
        exact ⟨top, htop, mask, hmask, rfl⟩
  · simp [hcomponents]

/-- The points of the enclosing mask that the top one leaves out. -/
def otherBranch (top enclosing : Mask) : Mask :=
  Array.zipWith (fun active outer => !active && outer) top enclosing

theorem invert_eq_ok : masks.invert = .ok next ↔ ∃ top enclosing rest,
    masks.entries = top :: enclosing :: rest ∧
    next = { masks with entries := otherBranch top enclosing :: enclosing :: rest } := by
  obtain ⟨points, entries⟩ := masks
  match entries with
  | [] => simp [invert]
  | [_] => simp [invert]
  | top :: enclosing :: rest =>
    constructor
    · exact fun h => ⟨top, enclosing, rest, rfl, (Except.ok.inj h).symm⟩
    · rintro ⟨_, _, _, ⟨⟩, rfl⟩
      rfl

theorem clear_eq_ok : masks.clear = .ok next ↔ ∃ top enclosing rest,
    masks.entries = top :: enclosing :: rest ∧
    next = { masks with entries := enclosing :: rest } := by
  obtain ⟨points, entries⟩ := masks
  match entries with
  | [] => simp [clear]
  | [_] => simp [clear]
  | top :: enclosing :: rest =>
    constructor
    · exact fun h => ⟨top, enclosing, rest, rfl, (Except.ok.inj h).symm⟩
    · rintro ⟨_, _, _, ⟨⟩, rfl⟩
      rfl

end MaskStack

/-! ### Registers -/

namespace Registers

variable {registers next : Registers} {masks : MaskStack} {points : Nat} {value : Value}

@[simp] theorem put_constant {slot : Nat} :
    registers.put (.constant slot) value = .ok next ↔ False := by
  simp [put]

@[simp] theorem put_symbol {slot : Nat} :
    registers.put (.symbol slot) value = .ok next ↔ slot < registers.symbols.size ∧
      next = { registers with symbols := registers.symbols.setIfInBounds slot value } := by
  simp only [put, bind_eq_ok, store_eq_ok, pure_eq_ok]
  constructor
  · rintro ⟨_, ⟨hlt, rfl⟩, rfl⟩
    exact ⟨hlt, rfl⟩
  · rintro ⟨hlt, rfl⟩
    exact ⟨_, ⟨hlt, rfl⟩, rfl⟩

@[simp] theorem put_temporary {slot : Nat} :
    registers.put (.temporary slot) value = .ok next ↔ slot < registers.temporaries.size ∧
      next = { registers with temporaries := registers.temporaries.setIfInBounds slot value } := by
  simp only [put, bind_eq_ok, store_eq_ok, pure_eq_ok]
  constructor
  · rintro ⟨_, ⟨hlt, rfl⟩, rfl⟩
    exact ⟨hlt, rfl⟩
  · rintro ⟨hlt, rfl⟩
    exact ⟨_, ⟨hlt, rfl⟩, rfl⟩

@[simp] theorem commit_constant {slot : Nat} :
    registers.commit masks points (.constant slot) value = .ok next ↔ False := by
  simp [commit, put]

@[simp] theorem commit_temporary {slot : Nat} :
    registers.commit masks points (.temporary slot) value = .ok next ↔
      slot < registers.temporaries.size ∧
      next = { registers with temporaries := registers.temporaries.setIfInBounds slot value } :=
  put_temporary

/-- A varying value that reads as `value` does. -/
def spread (points : Nat) (value : Value) : Except Fault Value :=
  if value.isUniform then value.broadcast points else .ok value

/-- What a symbol that holds `target` holds once it has taken `value`. -/
inductive Takes (masks : MaskStack) (points : Nat) (target value : Value) : Value → Prop
  /-- A symbol that holds nothing takes the value as it is. -/
  | empty (hempty : target.isEmpty = true) : Takes masks points target value value
  /-- A uniform symbol takes a uniform value as it is. -/
  | uniform (hempty : target.isEmpty = false) (htarget : target.storage = .uniform)
      (hvalue : value.storage = .uniform) : Takes masks points target value value
  /-- A varying symbol takes the floats of the active points. -/
  | varying (full : Value) (mask : Option Mask) (floats : Buffer)
      (hempty : target.isEmpty = false) (htarget : target.storage = .varying)
      (hcomponents : target.components = value.components)
      (hfull : spread points value = .ok full) (hmask : masks.active = .ok mask)
      (hmerge : merge mask target.components target.floats full.floats = .ok floats) :
      Takes masks points target value { target with floats := floats }

section Takes

variable {target taken : Value}

theorem takes_of_isEmpty (hempty : target.isEmpty = true) :
    Takes masks points target value taken ↔ taken = value := by
  constructor
  · intro h
    cases h with
    | empty => rfl
    | uniform => rfl
    | varying _ _ _ h => simp [hempty] at h
  · rintro rfl
    exact .empty hempty

theorem takes_of_uniform (hempty : target.isEmpty = false) (htarget : target.storage = .uniform) :
    Takes masks points target value taken ↔ value.storage = .uniform ∧ taken = value := by
  constructor
  · intro h
    cases h with
    | empty h => simp [hempty] at h
    | uniform _ _ hvalue => exact ⟨hvalue, rfl⟩
    | varying _ _ _ _ h => simp [htarget] at h
  · rintro ⟨hvalue, rfl⟩
    exact .uniform hempty htarget hvalue

theorem takes_of_varying (hempty : target.isEmpty = false) (htarget : target.storage = .varying) :
    Takes masks points target value taken ↔ target.components = value.components ∧
      ∃ full, spread points value = .ok full ∧ ∃ mask, masks.active = .ok mask ∧
        ∃ floats, merge mask target.components target.floats full.floats = .ok floats ∧
          taken = { target with floats := floats } := by
  constructor
  · intro h
    cases h with
    | empty h => simp [hempty] at h
    | uniform _ h => simp [htarget] at h
    | varying full mask floats _ _ hcomponents hfull hmask hmerge =>
      exact ⟨hcomponents, full, hfull, mask, hmask, floats, hmerge, rfl⟩
  · rintro ⟨hcomponents, full, hfull, mask, hmask, floats, hmerge, rfl⟩
    exact .varying full mask floats hempty htarget hcomponents hfull hmask hmerge

end Takes

theorem bind_spread (rest : Value → Except Fault Registers) :
    (if value.isUniform then value.broadcast points >>= rest else pure value >>= rest)
      = spread points value >>= rest := by
  unfold spread
  split <;> rfl

/-- **Results.**  A symbol takes a result in one of three ways. -/
theorem commit_symbol_eq_ok {slot : Nat} :
    registers.commit masks points (.symbol slot) value = .ok next ↔
      ∃ target taken, registers.symbols[slot]? = some target ∧
        Takes masks points target value taken ∧
        next = { registers with symbols := registers.symbols.setIfInBounds slot taken } := by
  unfold commit
  simp only [bind_eq_ok, target, fetch_eq_ok]
  refine exists_congr fun target => ?_
  rw [exists_and_left]
  refine and_congr_right fun htarget => ?_
  have hput : ∀ taken, registers.put (.symbol slot) taken = .ok next ↔
      next = { registers with symbols := registers.symbols.setIfInBounds slot taken } := by
    intro taken
    rw [put_symbol]
    exact and_iff_right (Array.getElem?_eq_some_iff.mp htarget).1
  by_cases hempty : target.isEmpty = true
  · simp only [if_pos hempty, hput, takes_of_isEmpty hempty, exists_eq_left]
  rw [if_neg hempty]
  have hempty : target.isEmpty = false := by simpa using hempty
  obtain hstorage | hstorage := target.storage.uniform_or_varying
  · rw [if_pos (by simp [Value.isUniform, hstorage])]
    simp only [takes_of_uniform hempty hstorage]
    by_cases hvalue : value.storage = .uniform
    · simp [Value.isUniform, hvalue, hput]
    · simp [Value.isUniform, hvalue]
  · rw [if_neg (by simp [Value.isUniform, hstorage])]
    simp only [takes_of_varying hempty hstorage]
    by_cases hcomponents : target.components = value.components
    · rw [if_neg (by simpa using hcomponents), bind_spread]
      simp only [bind_eq_ok, hput, hcomponents, true_and]
      constructor
      · rintro ⟨full, hfull, mask, hmask, floats, hmerge, rfl⟩
        exact ⟨_, ⟨full, hfull, mask, hmask, floats, hmerge, rfl⟩, rfl⟩
      · rintro ⟨_, ⟨full, hfull, mask, hmask, floats, hmerge, rfl⟩, rfl⟩
        exact ⟨full, hfull, mask, hmask, floats, hmerge, rfl⟩
    · simp [hcomponents]

end Registers

/-! ### Commands on registers -/

/-- The value has the shape, and as many elements as the shape has over so many points. -/
structure Value.HasShape (points : Nat) (shape : Shape) (value : Value) : Prop where
  shape_eq : value.shape? = some shape
  size_eq : value.size = shape.storage.size points

theorem checkShape_eq_ok {instruction : Instruction} {points : Nat} {shape : Shape} {value : Value}
    {u : Unit} : checkShape instruction points shape value = .ok u ↔
      value.HasShape points shape := by
  unfold checkShape
  split
  next h => exact iff_of_true rfl ⟨h.1, h.2⟩
  next h => exact iff_of_false nofun fun hshape => h ⟨hshape.1, hshape.2⟩

/-- The operands are what the operation is for. -/
def PointOp.Suits (op : PointOp) (points : Nat) (a b : Value) : Prop :=
  match op with
  | .arithmetic _ lhs rhs | .test _ lhs rhs => a.HasShape points lhs ∧ b.HasShape points rhs
  | .negate shape | .copy _ shape => a.HasShape points shape
  | .transform storage =>
    (a.type = .matrix ∧ a.storage = .uniform) ∧ b.HasShape points ⟨storage, .three⟩

theorem PointOp.check_eq_ok {op : PointOp} {instruction : Instruction} {points : Nat} {a b : Value}
    {u : Unit} : op.check instruction points a b = .ok u ↔ op.Suits points a b := by
  unfold check Suits
  cases op with
  | arithmetic | test | negate | copy => simp [checkShape_eq_ok]
  | transform storage =>
    by_cases hmatrix : a.type = .matrix
    · obtain hstorage | hstorage := a.storage.uniform_or_varying
      · simp [hmatrix, Value.isVarying, hstorage, checkShape_eq_ok]
      · simp [hmatrix, Value.isVarying, hstorage]
    · simp [hmatrix]

/-- The command of the instruction at offset `ip`. -/
def Shader.CommandAt (shader : Shader) (ip : Nat) (command : Command) : Prop :=
  ∃ word instruction, shader.code[ip]? = some word ∧ Instruction.decode word = .ok instruction ∧
    Command.decode shader.code ip instruction = .ok command

namespace Machine

variable {σ : Type} {constants : Array Value} {machine next : Machine σ} {instruction : Instruction}

/-- **Operations.**  The result is computed into a value of the right type, storage and size, which
    is then put where it belongs. -/
theorem compute_eq_ok {op : PointOp} {type : Option ElementType} {result first last : Address} :
    machine.compute constants instruction op type result first last = .ok next ↔
      ∃ destination a b fitted floats registers,
        machine.registers.checkAliases constants result [first, last] = .ok () ∧
        machine.registers.claim result = .ok destination ∧
        machine.registers.read constants first = .ok a ∧
        machine.registers.read constants last = .ok b ∧
        op.Suits machine.points a b ∧
        destination.ensure (type.getD (op.resultType a b)) op.storage
          (op.storage.size machine.points) = .ok fitted ∧
        op.run fitted.floats a.floats b.floats machine.points = .ok floats ∧
        machine.registers.commit machine.masks machine.points result
          { fitted with floats := floats } = .ok registers ∧
        next = { machine with registers := registers } := by
  unfold compute
  simp only [bind_eq_ok, pure_eq_ok, PointOp.check_eq_ok]
  constructor
  · rintro ⟨_, halias, destination, hclaim, a, ha, b, hb, _, hcheck, fitted, hfitted, floats,
      hfloats, registers, hcommit, rfl⟩
    exact ⟨destination, a, b, fitted, floats, registers, halias, hclaim, ha, hb, hcheck, hfitted,
      hfloats, hcommit, rfl⟩
  · rintro ⟨destination, a, b, fitted, floats, registers, halias, hclaim, ha, hb, hcheck, hfitted,
      hfloats, hcommit, rfl⟩
    exact ⟨(), halias, destination, hclaim, a, ha, b, hb, (), hcheck, fitted, hfitted, floats,
      hfloats, registers, hcommit, rfl⟩

/-- A plain assignment gives its destination a new shape before it writes. -/
def IsReshaped (update : Update) (target : Address) (destination : Value) : Prop :=
  update.operator = .replace ∧ (destination.isEmpty ||
    (target matches .temporary _) && destination.shape? ≠ some update.destination) = true

instance (update : Update) (target : Address) (destination : Value) :
    Decidable (IsReshaped update target destination) :=
  inferInstanceAs (Decidable (_ ∧ _))

/-- The destination of an assignment as it is written. -/
def shaped (points : Nat) (update : Update) (target : Address) (destination value : Value) :
    Except Fault Value :=
  if IsReshaped update target destination then
    destination.reset value.type update.destination.storage (update.destination.storage.size points)
  else
    .ok destination

/-- The mask that an assignment heeds. -/
def assignmentMask (masks : MaskStack) (update : Update) : Except Fault (Option Mask) :=
  match update.destination.storage with
  | .varying => masks.active
  | .uniform => .ok none

theorem assign_eq (update : Update) (target source : Address) :
    machine.assign constants instruction update target source = do
      machine.registers.checkAliases constants target [source]
      let destination ← machine.registers.target target
      let value ← machine.registers.read constants source
      checkShape instruction machine.points update.source value
      let written ← shaped machine.points update target destination value
      checkShape instruction machine.points update.destination written
      let mask ← assignmentMask machine.masks update
      let floats ← update.run written.floats value.floats mask machine.points
      let registers ← machine.registers.put target { written with floats := floats }
      return { machine with registers := registers } := by
  unfold assign shaped assignmentMask
  refine bind_congr fun _ => bind_congr fun destination => bind_congr fun value =>
    bind_congr fun _ => ?_
  change (if IsReshaped update target destination then _ else _) = _
  by_cases h : IsReshaped update target destination
  · rw [if_pos h, if_pos h]
    cases update.destination.storage <;> rfl
  · rw [if_neg h, if_neg h]
    cases update.destination.storage <;> rfl

/-- **Assignments.**  The destination, perhaps given a new shape, is written in place. -/
theorem assign_eq_ok {update : Update} {target source : Address} :
    machine.assign constants instruction update target source = .ok next ↔
      ∃ destination value written mask floats registers,
        machine.registers.checkAliases constants target [source] = .ok () ∧
        machine.registers.target target = .ok destination ∧
        machine.registers.read constants source = .ok value ∧
        value.HasShape machine.points update.source ∧
        shaped machine.points update target destination value = .ok written ∧
        written.HasShape machine.points update.destination ∧
        assignmentMask machine.masks update = .ok mask ∧
        update.run written.floats value.floats mask machine.points = .ok floats ∧
        machine.registers.put target { written with floats := floats } = .ok registers ∧
        next = { machine with registers := registers } := by
  rw [assign_eq]
  simp only [bind_eq_ok, pure_eq_ok, checkShape_eq_ok]
  constructor
  · rintro ⟨_, halias, destination, htarget, value, hvalue, _, hsource, written, hwritten, _,
      hdestination, mask, hmask, floats, hfloats, registers, hput, rfl⟩
    exact ⟨destination, value, written, mask, floats, registers, halias, htarget, hvalue, hsource,
      hwritten, hdestination, hmask, hfloats, hput, rfl⟩
  · rintro ⟨destination, value, written, mask, floats, registers, halias, htarget, hvalue, hsource,
      hwritten, hdestination, hmask, hfloats, hput, rfl⟩
    exact ⟨(), halias, destination, htarget, value, hvalue, (), hsource, written, hwritten, (),
      hdestination, mask, hmask, floats, hfloats, registers, hput, rfl⟩

theorem eq_of_compute {op : PointOp} {type : Option ElementType} {result first last : Address}
    (h : machine.compute constants instruction op type result first last = .ok next) :
    ∃ registers, next = { machine with registers := registers } := by
  obtain ⟨_, _, _, _, _, registers, -, -, -, -, -, -, -, -, rfl⟩ := compute_eq_ok.mp h
  exact ⟨registers, rfl⟩

theorem eq_of_assign {update : Update} {target source : Address}
    (h : machine.assign constants instruction update target source = .ok next) :
    ∃ registers, next = { machine with registers := registers } := by
  obtain ⟨_, _, _, _, _, registers, -, -, -, -, -, -, -, -, -, rfl⟩ := assign_eq_ok.mp h
  exact ⟨registers, rfl⟩

/-! ### All commands -/

/-- What becomes of a machine that performs a command. -/
inductive Performed (renderer : Renderer σ) (shader : Shader) (instruction : Instruction)
    (machine : Machine σ) : Command → Flow → Machine σ → Prop
  | nothing : Performed renderer shader instruction machine .nothing .next machine
  | halt : Performed renderer shader instruction machine .halt .halt machine
  | discard (registers : Registers)
      (h : machine.registers.clearTemporaries 0 = .ok registers) :
      Performed renderer shader instruction machine .discard .next
        { machine with registers := registers }
  | clearMask (masks : MaskStack) (h : machine.masks.clear = .ok masks) :
      Performed renderer shader instruction machine .clearMask .next { machine with masks := masks }
  | generateMask (predicate : Address) (value : Value) (masks : MaskStack)
      (hvalue : machine.registers.read shader.constants predicate = .ok value)
      (h : machine.masks.generate value = .ok masks) :
      Performed renderer shader instruction machine (.generateMask predicate) .next
        { machine with masks := masks }
  | invertMask (masks : MaskStack) (h : machine.masks.invert = .ok masks) :
      Performed renderer shader instruction machine .invertMask .next { machine with masks := masks }
  | pass (condition : JumpCondition) (target : Option Nat) (h : machine.taken condition = .ok false) :
      Performed renderer shader instruction machine (.jump condition target) .next machine
  | jump (condition : JumpCondition) (target : Nat) (h : machine.taken condition = .ok true) :
      Performed renderer shader instruction machine (.jump condition (some target)) (.jump target)
        machine
  | compute (op : PointOp) (type : Option ElementType) (result first last : Address)
      (next : Machine σ)
      (h : machine.compute shader.constants instruction op type result first last = .ok next) :
      Performed renderer shader instruction machine (.compute op type result first last) .next next
  | assign (update : Update) (target source : Address) (next : Machine σ)
      (h : machine.assign shader.constants instruction update target source = .ok next) :
      Performed renderer shader instruction machine (.assign update target source) .next next
  | call (function : Builtin) (result : Address) (addresses : List Address) (next : Machine σ)
      (h : machine.call shader.constants renderer.scene function result addresses = .ok next) :
      Performed renderer shader instruction machine (.call function result addresses) .next next
  | evaluate (name : Address) (next : Machine σ)
      (h : machine.evaluate shader.constants renderer shader.symbols name = .ok next) :
      Performed renderer shader instruction machine (.evaluate name) .next next

/-- **Commands.**  All that performing a command can do. -/
theorem perform_eq_ok {renderer : Renderer σ} {shader : Shader} {command : Command} {flow : Flow} :
    machine.perform renderer shader instruction command = .ok (flow, next) ↔
      Performed renderer shader instruction machine command flow next := by
  constructor
  · intro h
    cases command with
    | nothing =>
      obtain ⟨rfl, rfl⟩ := Prod.mk.inj (pure_eq_ok.mp h)
      exact .nothing
    | halt =>
      obtain ⟨rfl, rfl⟩ := Prod.mk.inj (pure_eq_ok.mp h)
      exact .halt
    | jump condition target =>
      simp only [perform, bind_eq_ok] at h
      obtain ⟨taken, htaken, h⟩ := h
      cases taken with
      | false =>
        obtain ⟨rfl, rfl⟩ := Prod.mk.inj (pure_eq_ok.mp h)
        exact .pass condition target htaken
      | true =>
        cases target with
        | none => simp at h
        | some target =>
          obtain ⟨rfl, rfl⟩ := Prod.mk.inj (pure_eq_ok.mp h)
          exact .jump condition target htaken
    | generateMask predicate =>
      simp only [perform, bind_eq_ok, pure_eq_ok, Prod.mk.injEq] at h
      obtain ⟨value, hvalue, masks, hmasks, rfl, rfl⟩ := h
      exact .generateMask predicate value masks hvalue hmasks
    | discard | clearMask | invertMask | compute | assign | call | evaluate =>
      -- these do one thing and go on
      simp only [perform, bind_eq_ok, pure_eq_ok, Prod.mk.injEq] at h
      obtain ⟨after, hafter, rfl, rfl⟩ := h
      constructor
      exact hafter
  · intro h
    cases h with
    | nothing | halt => rfl
    | pass _ _ h | jump _ _ h | discard _ h | clearMask _ h | invertMask _ h => simp [perform, h]
    | compute _ _ _ _ _ _ h | assign _ _ _ _ h | call _ _ _ _ h | evaluate _ _ h =>
      simp [perform, h]
    | generateMask _ _ _ hvalue h => simp [perform, hvalue, h]

/-! ### Instructions -/

/-- Where a machine goes after the instruction at `ip`. -/
def moved (code : Array Word) (ip : Nat) (opcode : Opcode) (machine : Machine σ) :
    Flow → Except Fault (Machine σ)
  | .next => do return { machine with ip := ip + (← instructionSize code ip opcode) }
  | .jump target => .ok { machine with ip := target }
  | .halt => .ok machine

theorem eq_of_moved {code : Array Word} {ip : Nat} {opcode : Opcode} {flow : Flow}
    (h : machine.moved code ip opcode flow = .ok next) :
    ∃ offset, next = { machine with ip := offset } := by
  cases flow with
  | next =>
    obtain ⟨size, -, rfl⟩ : ∃ size, instructionSize code ip opcode = .ok size ∧
        { machine with ip := ip + size } = next := by simpa [moved] using h
    exact ⟨_, rfl⟩
  | jump target => exact ⟨target, (Except.ok.inj h).symm⟩
  | halt => exact ⟨machine.ip, (Except.ok.inj h).symm⟩

theorem step_eq (renderer : Renderer σ) (shader : Shader) (word : Word) :
    machine.step renderer shader word = do
      let instruction ← (Instruction.decode word).mapError (Fault.malformedCode machine.ip)
      let command ← Command.decode shader.code machine.ip instruction
      let (flow, last) ← { machine with executed := machine.executed + 1 }.perform renderer shader
        instruction command
      let next ← last.moved shader.code machine.ip instruction.opcode flow
      return (flow, next) := by
  unfold step
  refine bind_congr fun instruction => bind_congr fun command => bind_congr fun result => ?_
  obtain ⟨flow, last⟩ := result
  cases flow with
  | next => simp [moved]
  | jump target => rfl
  | halt => rfl

/-- **Instructions.**  A word is decoded, counted and performed, and the machine moves on. -/
theorem step_eq_ok {renderer : Renderer σ} {shader : Shader} {word : Word} {flow : Flow} :
    machine.step renderer shader word = .ok (flow, next) ↔
      ∃ instruction command last,
        Instruction.decode word = .ok instruction ∧
        Command.decode shader.code machine.ip instruction = .ok command ∧
        { machine with executed := machine.executed + 1 }.perform renderer shader instruction
          command = .ok (flow, last) ∧
        last.moved shader.code machine.ip instruction.opcode flow = .ok next := by
  rw [step_eq]
  simp only [bind_eq_ok, mapError_eq_ok, pure_eq_ok, Prod.mk.injEq]
  constructor
  · rintro ⟨instruction, hinstruction, command, hcommand, ⟨_, last⟩, hperform, _, hmoved, rfl, rfl⟩
    exact ⟨instruction, command, last, hinstruction, hcommand, hperform, hmoved⟩
  · rintro ⟨instruction, command, last, hinstruction, hcommand, hperform, hmoved⟩
    exact ⟨instruction, hinstruction, command, hcommand, (flow, last), hperform, next, hmoved, rfl, rfl⟩

/-- The machine executes the command at its offset. -/
def Executes (renderer : Renderer σ) (shader : Shader) (command : Command)
    (machine next : Machine σ) : Prop :=
  shader.CommandAt machine.ip command ∧ ∃ word flow, shader.code[machine.ip]? = some word ∧
    machine.step renderer shader word = .ok (flow, next)

/-- Executing a command is performing it, up to the count of instructions and the offset. -/
theorem Executes.performed {renderer : Renderer σ} {shader : Shader} {command : Command}
    (h : Executes renderer shader command machine next) :
    ∃ instruction flow last offset,
      Performed renderer shader instruction { machine with executed := machine.executed + 1 }
        command flow last ∧ next = { last with ip := offset } := by
  obtain ⟨⟨word, instruction, hword, hinstruction, hcommand⟩, word', flow, hword', hstep⟩ := h
  obtain rfl := Option.some.inj (hword.symm.trans hword')
  obtain ⟨instruction', command', last, hinstruction', hcommand', hperform, hmoved⟩ :=
    step_eq_ok.mp hstep
  obtain rfl := Except.ok.inj (hinstruction.symm.trans hinstruction')
  obtain rfl := Except.ok.inj (hcommand.symm.trans hcommand')
  obtain ⟨offset, hnext⟩ := eq_of_moved hmoved
  exact ⟨instruction, flow, last, offset, perform_eq_ok.mp hperform, hnext⟩

/-- A run goes on after an instruction that is not the last one. -/
theorem turn_eq_on {renderer : Renderer σ} {shader : Shader} :
    turn renderer shader machine = .on next ↔
    ∃ word flow, shader.code[machine.ip]? = some word ∧ machine.reachedLimit? = none ∧
      machine.step renderer shader word = .ok (flow, next) ∧ flow ≠ .halt := by
  unfold turn
  cases hword : shader.code[machine.ip]? with
  | none => simp
  | some word =>
    cases hreached : machine.reachedLimit? with
    | some limit => simp
    | none =>
      cases hstep : machine.step renderer shader word with
      | error fault => simp [hstep]
      | ok result =>
        obtain ⟨flow, after⟩ := result
        cases flow <;> simp [hstep, and_assoc]

/-- What every instruction keeps, a run keeps. -/
theorem run_invariant {renderer : Renderer σ} {shader : Shader} (P : Machine σ → Prop)
    (hstep : ∀ machine next word flow, P machine → shader.code[machine.ip]? = some word →
      machine.step renderer shader word = .ok (flow, next) → P next)
    (turns : Nat) (h : P machine) : P (run renderer shader turns machine).2 := by
  induction turns generalizing machine with
  | zero => exact h
  | succ turns ih =>
    rw [run, turn]
    cases hword : shader.code[machine.ip]? with
    | none => exact h
    | some word =>
      cases machine.reachedLimit? with
      | some limit => exact h
      | none =>
        cases hresult : machine.step renderer shader word with
        | error fault => simpa [hresult] using h
        | ok result =>
          obtain ⟨flow, next⟩ := result
          have hnext := hstep machine next word flow h hword hresult
          cases flow with
          | next => simpa [hresult] using ih hnext
          | jump target => simpa [hresult] using ih hnext
          | halt => simpa [hresult] using hnext

end Machine

end Shading
