import Shading.Proofs.Agreement

namespace Shading

/-!
# Blocks of code

A block is code that is executed from its first instruction to its last, without jumps.  What the
commands of a block keep, the block keeps.

* `Shader.Block` — where a block lies in the code of a shader;
* `Machine.Arrives` — a run up to some offset;
* `Machine.Runs` — a machine that executes commands one after another, and `Machine.Arrives.block`,
  which says that this is what happens in a block;
* `Machine.Runs.rewritten`, `Machine.Runs.shielded`, `Machine.Runs.agrees` — what is left of the
  registers.
-/

/-- The commands from one offset of the code to another, each following the one before. -/
inductive Shader.Block (shader : Shader) : Nat → List Command → Nat → Prop
  | nil (ip : Nat) : Block shader ip [] ip
  | cons {ip size stop : Nat} {word : Word} {instruction : Instruction} {command : Command}
      {commands : List Command} (hword : shader.code[ip]? = some word)
      (hinstruction : Instruction.decode word = .ok instruction)
      (hcommand : Command.decode shader.code ip instruction = .ok command)
      (hsize : instructionSize shader.code ip instruction.opcode = .ok size)
      (rest : Block shader (ip + size) commands stop) : Block shader ip (command :: commands) stop

theorem instructionSize_pos {code : Array Word} {ip size : Nat} {opcode : Opcode}
    (h : instructionSize code ip opcode = .ok size) : 0 < size := by
  unfold instructionSize at h
  split at h
  · obtain rfl := Except.ok.inj h
    omega
  · simp only [bind_eq_ok, pure_eq_ok] at h
    obtain ⟨count, -, rfl⟩ := h
    omega

theorem Shader.Block.le {shader : Shader} {ip stop : Nat} {commands : List Command}
    (h : shader.Block ip commands stop) : ip ≤ stop := by
  induction h with
  | nil => exact Nat.le_refl _
  | cons => omega

theorem Shader.Block.split {shader : Shader} {ip stop : Nat} {command : Command}
    {commands : List Command} (h : shader.Block ip (command :: commands) stop) :
    ∃ between, shader.Block ip [command] between ∧ shader.Block between commands stop := by
  cases h with
  | cons hword hinstruction hcommand hsize rest =>
    exact ⟨_, .cons hword hinstruction hcommand hsize (.nil _), rest⟩

namespace Machine

variable {σ : Type} {renderer : Renderer σ} {shader : Shader} {command : Command}
  {commands : List Command} {machine next last : Machine σ} {stop : Nat}

/-! ### Runs through blocks -/

/-- A run that goes on until it first comes to the offset `stop`. -/
inductive Arrives (renderer : Renderer σ) (shader : Shader) (stop : Nat) :
    Machine σ → Machine σ → Prop
  | here {machine : Machine σ} (hip : machine.ip = stop) : Arrives renderer shader stop machine machine
  | turn {machine last : Machine σ} (next : Machine σ) (hip : machine.ip ≠ stop)
      (h : turn renderer shader machine = .on next) (rest : Arrives renderer shader stop next last) :
      Arrives renderer shader stop machine last

theorem Arrives.eq_of_ip (h : Arrives renderer shader stop machine last) (hip : machine.ip = stop) :
    machine = last := by
  cases h with
  | here => rfl
  | turn _ hne => exact absurd hip hne

/-- A machine that executes commands one after another. -/
inductive Runs (renderer : Renderer σ) (shader : Shader) : List Command → Machine σ → Machine σ → Prop
  | nil (machine : Machine σ) : Runs renderer shader [] machine machine
  | cons {command : Command} {commands : List Command} {machine next last : Machine σ}
      (executes : Executes renderer shader command machine next)
      (rest : Runs renderer shader commands next last) :
      Runs renderer shader (command :: commands) machine last

/-- The first instruction on the way to a later offset. -/
theorem Arrives.instruction {ip after : Nat} (hblock : shader.Block ip (command :: commands) after)
    (hip : machine.ip = ip) (hne : ip ≠ stop) (h : Arrives renderer shader stop machine last) :
    ∃ instruction size flow performed next,
      Performed renderer shader instruction { machine with executed := machine.executed + 1 } command
        flow performed ∧
      flow ≠ .halt ∧ performed.moved shader.code ip instruction.opcode flow = .ok next ∧
      instructionSize shader.code ip instruction.opcode = .ok size ∧
      shader.Block (ip + size) commands after ∧ Executes renderer shader command machine next ∧
      Arrives renderer shader stop next last := by
  subst hip
  cases h with
  | here hip => exact absurd hip hne
  | turn _ _ hturn rest =>
    obtain ⟨word, flow, hword, -, hstep, hflow⟩ := turn_eq_on.mp hturn
    cases hblock with
    | cons hword' hinstruction hcommand hsize hrest =>
      obtain rfl := Option.some.inj (hword.symm.trans hword')
      obtain ⟨_, _, performed, hinstruction', hcommand', hperform, hmoved⟩ := step_eq_ok.mp hstep
      obtain rfl := Except.ok.inj (hinstruction.symm.trans hinstruction')
      obtain rfl := Except.ok.inj (hcommand.symm.trans hcommand')
      exact ⟨_, _, flow, performed, _, perform_eq_ok.mp hperform, hflow, hmoved, hsize, hrest,
        ⟨⟨word, _, hword, hinstruction, hcommand⟩, word, flow, hword, hstep⟩, rest⟩

theorem Performed.flow_eq {instruction : Instruction} {flow : Flow}
    (hstraight : command.isStraight = true)
    (h : Performed renderer shader instruction machine command flow next) : flow = .next := by
  cases h with
  | halt | discard | pass | jump | evaluate => cases hstraight
  | _ => rfl

/-- **Blocks.**  On its way to a later offset a run executes the commands of the block it is at. -/
theorem Arrives.block {ip after : Nat} (hblock : shader.Block ip commands after)
    (hstraight : ∀ command ∈ commands, command.isStraight = true) (hip : machine.ip = ip)
    (hle : after ≤ stop) (h : Arrives renderer shader stop machine last) :
    ∃ next, Runs renderer shader commands machine next ∧ next.ip = after ∧
      Arrives renderer shader stop next last := by
  induction commands generalizing ip machine with
  | nil =>
    cases hblock
    exact ⟨machine, .nil machine, hip, h⟩
  | cons command commands ih =>
    rw [List.forall_mem_cons] at hstraight
    have hne : ip ≠ stop := by
      cases hblock with
      | cons _ _ _ hsize hrest =>
        have hpos := instructionSize_pos hsize
        have hle := hrest.le
        omega
    obtain ⟨instruction, size, flow, performed, next, hperformed, -, hmoved, hsize, hrest, hexecutes,
      harrives⟩ := h.instruction hblock hip hne
    obtain rfl := hperformed.flow_eq hstraight.1
    simp only [moved, bind_eq_ok, pure_eq_ok] at hmoved
    obtain ⟨size', hsize', rfl⟩ := hmoved
    obtain rfl := Except.ok.inj (hsize.symm.trans hsize')
    obtain ⟨between, hruns, hbetween, harrives⟩ := ih hrest hstraight.2 rfl harrives
    exact ⟨between, .cons hexecutes hruns, hbetween, harrives⟩

/-- A straight command, as it is executed. -/
theorem Executes.straight (hstraight : command.isStraight = true)
    (h : Executes renderer shader command machine next) : ∃ instruction performed offset,
      Performed renderer shader instruction { machine with executed := machine.executed + 1 } command
        .next performed ∧ next = { performed with ip := offset } := by
  obtain ⟨instruction, flow, performed, offset, hperformed, hnext⟩ := h.performed
  obtain rfl := hperformed.flow_eq hstraight
  exact ⟨instruction, performed, offset, hperformed, hnext⟩

theorem Executes.fits (h : Executes renderer shader command machine next) : command.Fits := by
  obtain ⟨⟨_, _, _, _, hcommand⟩, -⟩ := h
  exact Command.fits_of_decode hcommand

/-! ### Registers -/

theorem Performed.points_eq {instruction : Instruction} {flow : Flow}
    (h : Performed renderer shader instruction machine command flow next)
    (hstraight : command.isStraight = true) :
    next.points = machine.points := by
  cases h with
  | halt | discard | pass | jump | evaluate => cases hstraight
  | nothing | clearMask | generateMask | invertMask => rfl
  | compute _ _ _ _ _ _ h =>
    obtain ⟨registers, rfl⟩ := eq_of_compute h
    rfl
  | assign _ _ _ _ h =>
    obtain ⟨registers, rfl⟩ := eq_of_assign h
    rfl
  | call _ _ _ _ h =>
    obtain ⟨registers, rfl⟩ := eq_of_call h
    rfl

/-- **What a block leaves alone.**  Only what its commands write may differ. -/
theorem Runs.rewritten (h : Runs renderer shader commands machine last)
    (hstraight : ∀ command ∈ commands, command.isStraight = true) (hpoints : 0 < machine.points)
    (hadmits : ∀ command ∈ commands, machine.Admits command) :
    Registers.Rewritten (fun address => ∃ command ∈ commands, address ∈ command.writes)
      machine.registers last.registers ∧ last.points = machine.points := by
  induction h with
  | nil => exact ⟨.refl _, rfl⟩
  | cons executes rest ih =>
    rw [List.forall_mem_cons] at hstraight hadmits
    obtain ⟨instruction, performed, offset, hperformed, rfl⟩ := executes.straight hstraight.1
    have hrewritten := hperformed.rewritten hstraight.1 hpoints hadmits.1
    have hsame : performed.points = _ := hperformed.points_eq hstraight.1
    obtain ⟨hrest, hlast⟩ := ih hstraight.2 (hsame ▸ hpoints) fun command hcommand =>
      (hadmits.2 command hcommand).of_rewritten hsame hrewritten
    refine ⟨(hrewritten.trans hrest).mono fun address haddress => ?_, hlast.trans hsame⟩
    simpa using haddress

/-! ### Masks -/

/-- How many levels are open after the commands, of those opened since some place before them. -/
def levelAfter? (commands : List Command) (level : Nat) : Option Nat :=
  commands.foldlM (fun level command => command.level? level) level

theorem levelAfter?_cons {level after : Nat} :
    levelAfter? (command :: commands) level = some after ↔
      ∃ between, command.level? level = some between ∧
        levelAfter? commands between = some after := by
  simp [levelAfter?, Option.bind_eq_some_iff]

end Machine

/-- So many masks on top of others. -/
def MaskStack.Above (outer : List Mask) (level : Nat) (masks : MaskStack) : Prop :=
  ∃ inner, inner.length = level ∧ masks.entries = inner ++ outer

namespace Machine

variable {σ : Type} {renderer : Renderer σ} {shader : Shader} {command : Command}
  {commands : List Command} {machine next last : Machine σ} {stop : Nat}

theorem Performed.above {instruction : Instruction} {flow : Flow} {outer : List Mask}
    {level after : Nat} (h : Performed renderer shader instruction machine command flow next)
    (hstraight : command.isStraight = true) (hlevel : command.level? level = some after)
    (habove : machine.masks.Above outer level) :
    next.masks.Above outer after ∧ next.masks.points = machine.masks.points := by
  obtain ⟨inner, hlength, hentries⟩ := habove
  cases h with
  | halt | discard | pass | jump | evaluate => cases hstraight
  | nothing =>
    obtain rfl : level = after := by simpa [Command.level?] using hlevel
    exact ⟨⟨inner, hlength, hentries⟩, rfl⟩
  | generateMask predicate value masks _ h =>
    obtain ⟨-, -, top, mask, -, -, rfl⟩ := MaskStack.generate_eq_ok.mp h
    obtain rfl := Option.some.inj hlevel
    exact ⟨⟨mask :: inner, by simp [hlength], by simp [hentries]⟩, rfl⟩
  | clearMask masks h =>
    obtain ⟨top, enclosing, rest, hmasks, rfl⟩ := MaskStack.clear_eq_ok.mp h
    -- a block leaves no level that it has not entered
    obtain _ | level := level
    · cases hlevel
    obtain _ | ⟨first, inner⟩ := inner
    · cases hlength
    obtain rfl := Option.some.inj hlevel
    obtain ⟨rfl, htail⟩ := List.cons.inj (hmasks.symm.trans hentries)
    exact ⟨⟨inner, Nat.succ.inj hlength, htail⟩, rfl⟩
  | invertMask masks h =>
    obtain ⟨top, enclosing, rest, hmasks, rfl⟩ := MaskStack.invert_eq_ok.mp h
    obtain _ | level := level
    · cases hlevel
    obtain _ | ⟨first, inner⟩ := inner
    · cases hlength
    obtain rfl := Option.some.inj hlevel
    obtain ⟨rfl, htail⟩ := List.cons.inj (hmasks.symm.trans hentries)
    exact ⟨⟨MaskStack.otherBranch top enclosing :: inner, hlength, by simp [htail]⟩, rfl⟩
  | compute _ _ _ _ _ _ h =>
    obtain ⟨registers, rfl⟩ := eq_of_compute h
    obtain rfl : level = after := by simpa [Command.level?] using hlevel
    exact ⟨⟨inner, hlength, hentries⟩, rfl⟩
  | assign _ _ _ _ h =>
    obtain ⟨registers, rfl⟩ := eq_of_assign h
    obtain rfl : level = after := by simpa [Command.level?] using hlevel
    exact ⟨⟨inner, hlength, hentries⟩, rfl⟩
  | call _ _ _ _ h =>
    obtain ⟨registers, rfl⟩ := eq_of_call h
    obtain rfl : level = after := by simpa [Command.level?] using hlevel
    exact ⟨⟨inner, hlength, hentries⟩, rfl⟩

/-- **Balance.**  A block that leaves only levels that it entered leaves the others as they are. -/
theorem Runs.above {outer : List Mask} {level after : Nat}
    (h : Runs renderer shader commands machine last)
    (hstraight : ∀ command ∈ commands, command.isStraight = true)
    (hlevel : levelAfter? commands level = some after) (habove : machine.masks.Above outer level) :
    last.masks.Above outer after ∧ last.masks.points = machine.masks.points := by
  induction h generalizing level with
  | nil =>
    obtain rfl := Option.some.inj hlevel
    exact ⟨habove, rfl⟩
  | cons executes rest ih =>
    rw [List.forall_mem_cons] at hstraight
    obtain ⟨between, hbetween, hlevel⟩ := levelAfter?_cons.mp hlevel
    obtain ⟨instruction, performed, offset, hperformed, rfl⟩ := executes.straight hstraight.1
    obtain ⟨hnext, hpoints⟩ := hperformed.above hstraight.1 hbetween habove
    obtain ⟨hlast, hpoints'⟩ := ih hstraight.2 hlevel hnext
    exact ⟨hlast, hpoints'.trans hpoints⟩

/-- A stretch of execution, then another one. -/
theorem Shielded.trans {d : Nat} (h : Shielded renderer shader d machine next)
    (h' : Shielded renderer shader d next last) : Shielded renderer shader d machine last := by
  induction h' with
  | start => exact h
  | step _ executes spares inside ih => exact .step ih executes spares inside

/-- A balanced block inside a conditional never leaves it. -/
theorem Runs.shielded {outer : List Mask} {level after : Nat}
    (h : Runs renderer shader commands machine last)
    (hstraight : ∀ command ∈ commands, command.isStraight = true)
    (hlevel : levelAfter? commands level = some after) (habove : machine.masks.Above outer level)
    (hpoints : 0 < machine.points) (hadmits : ∀ command ∈ commands, machine.Admits command) :
    Shielded renderer shader outer.length machine last := by
  induction h generalizing level with
  | nil => exact .start _
  | @cons command commands machine next last executes rest ih =>
    rw [List.forall_mem_cons] at hstraight hadmits
    obtain ⟨between, hbetween, hlevel⟩ := levelAfter?_cons.mp hlevel
    obtain ⟨instruction, performed, offset, hperformed, rfl⟩ := executes.straight hstraight.1
    obtain ⟨hnext, -⟩ := hperformed.above hstraight.1 hbetween habove
    have hrewritten := hperformed.rewritten hstraight.1 hpoints hadmits.1
    have hsame : performed.points = _ := hperformed.points_eq hstraight.1
    have hrest := ih hstraight.2 hlevel hnext (hsame ▸ hpoints) fun command hcommand =>
      (hadmits.2 command hcommand).of_rewritten hsame hrewritten
    have hspares : machine.Spares outer.length command := by
      cases command with
      | evaluate => cases hstraight.1
      | call => exact hadmits.1.outputsFit
      | invertMask =>
        obtain ⟨inner, hlength, hentries⟩ := habove
        match level, hbetween with
        | level + 1, _ =>
          rw [Spares, MaskStack.depth, hentries, List.length_append]
          omega
      | _ => trivial
    refine Shielded.trans (.step (.start _) executes hspares ?_) hrest
    obtain ⟨inner, -, hentries⟩ := hnext
    change outer.length ≤ performed.masks.entries.length
    rw [hentries, List.length_append]
    omega

/-! ### Agreement -/

/-- Wherever a builtin reads a float in the course of the commands, it is passed one. -/
def FloatsAlong (renderer : Renderer σ) (shader : Shader) : List Command → Machine σ → Prop
  | [], _ => True
  | command :: commands, machine => machine.PassesFloats shader.constants command ∧
      ∀ next, Executes renderer shader command machine next →
        FloatsAlong renderer shader commands next

variable {points i : Nat} {seen : Address → Prop} {machine' next' last' : Machine σ}

theorem Over.cut (h : machine.Over points) (hi : i < points) : (machine.cut i).registers.Over 1 :=
  ⟨h.registers.symbols.cut hi, h.registers.temporaries.cut hi⟩

/-- What is passed to a builtin has the same type where machines agree. -/
theorem Agrees.passesFloats {level : Nat} (h : (machine.cut i).Agrees seen level (machine'.cut i))
    (hseen : ∀ address ∈ command.mentions, seen address)
    (hfloats : machine'.PassesFloats shader.constants command) :
    machine.PassesFloats shader.constants command := by
  cases command with
  | call function result addresses =>
    intro n hn address value haddress hvalue
    have hread := h.registers (shader.constants.map (Value.cut · i)) address
      (hseen address (List.mem_cons_of_mem _ (List.mem_of_getElem? haddress)))
    change (machine.registers.cut i).read _ _ = (machine'.registers.cut i).read _ _ at hread
    rw [Registers.read_cut hvalue, Registers.cut_read] at hread
    cases hvalue' : machine'.registers.read shader.constants address with
    | error fault => simp [hvalue', Except.map] at hread
    | ok value' =>
      rw [hvalue'] at hread
      have hcut : value.cut i = value'.cut i := Except.ok.inj hread
      have htype := hfloats n hn address value' haddress hvalue'
      rwa [← Value.cut_type (i := i), ← hcut, Value.cut_type] at htype
  | _ => trivial

theorem Executes.over (h : Executes renderer shader command machine next)
    (hstraight : command.isStraight = true) (hconstants : Value.AllOver points shader.constants)
    (hover : machine.Over points) : next.Over points := by
  obtain ⟨instruction, performed, offset, hperformed, rfl⟩ := h.straight hstraight
  have hafter : performed.Over points := by
    refine hperformed.over_of_ne ?_ hconstants hover.counted
    rintro name rfl
    cases hstraight
  exact ⟨hafter.points_eq, hafter.masks, hafter.registers⟩

/-- Registers and masks suit the points of the grid after a block if they did before. -/
theorem Runs.over (h : Runs renderer shader commands machine last)
    (hstraight : ∀ command ∈ commands, command.isStraight = true)
    (hconstants : Value.AllOver points shader.constants) (hover : machine.Over points) :
    last.Over points := by
  induction h with
  | nil => exact hover
  | cons executes rest ih =>
    rw [List.forall_mem_cons] at hstraight
    exact ih hstraight.2 (executes.over hstraight.1 hconstants hover)

/-- **Agreement over a block.**  Machines that agree at a point where both are active, and execute the
    same commands, agree at the end. -/
theorem Runs.agrees {level after : Nat} (h : Runs renderer shader commands machine last)
    (h' : Runs renderer shader commands machine' last') (hi : i < points)
    (hconstants : Value.AllOver points shader.constants) (hover : machine.Over points)
    (hover' : machine'.Over points) (hstraight : ∀ command ∈ commands, command.isStraight = true)
    (hpointwise : ∀ command ∈ commands, command.isPointwise = true)
    (hseen : ∀ command ∈ commands, ∀ address ∈ command.mentions, seen address)
    (hlevel : levelAfter? commands level = some after)
    (hfloats : FloatsAlong renderer shader commands machine')
    (hagrees : (machine.cut i).Agrees seen level (machine'.cut i)) :
    (last.cut i).Agrees seen after (last'.cut i) := by
  induction h generalizing machine' level with
  | nil =>
    cases h'
    obtain rfl := Option.some.inj hlevel
    exact hagrees
  | @cons command commands machine next last executes rest ih =>
    cases h' with
    | @cons _ _ _ next' _ executes' rest' =>
    rw [List.forall_mem_cons] at hstraight hpointwise hseen
    obtain ⟨between, hbetween, hlevel⟩ := levelAfter?_cons.mp hlevel
    obtain ⟨hpasses', hfloats⟩ := hfloats
    have hpasses := hagrees.passesFloats hseen.1 hpasses'
    have hfloats := hfloats next' executes'
    have hnext := executes.over hstraight.1 hconstants hover
    have hnext' := executes'.over hstraight.1 hconstants hover'
    obtain ⟨instruction, performed, offset, hperformed, rfl⟩ := executes.straight hstraight.1
    obtain ⟨instruction', performed', offset', hperformed', rfl⟩ := executes'.straight hstraight.1
    have hcut := hperformed.cut hi hover.counted hconstants hpointwise.1 executes.fits
      (by cases command <;> exact hpasses)
    have hcut' := hperformed'.cut hi hover'.counted hconstants hpointwise.1 executes.fits
      (by cases command <;> exact hpasses')
    have hafter := hcut.agrees hcut'
      ⟨hagrees.width_eq, hagrees.height_eq, hagrees.masks, hagrees.registers⟩
      (hover.counted.cut hi) (hconstants.cut hi) hstraight.1 hseen.1 hbetween
    exact ih rest' hnext hnext' hstraight.2 hpointwise.2 hseen.2 hlevel hfloats
      ⟨hafter.width_eq, hafter.height_eq, hafter.masks, hafter.registers⟩

end Machine

end Shading
