import Shading.Proofs.Checks
import Shading.Proofs.Lockstep
import Shading.Proofs.Soundness

namespace Shading

/-!
# Assembled code is index safe

A machine that runs assembled code over a valid grid is always where an instruction begins, finds every
word and every register that the instruction speaks of, and holds values that suit the grid.  Unless it
calls a builtin or enters a conditional, it never reads or writes beyond the end of anything.

* `Command.IsIn` — commands whose registers exist and whose jumps lead to instructions;
* `Shader.IsSound.decode` — what a sound instruction can be decoded to;
* `Machine.Underway` — the machines in a run, and `Underway.step`, which leads from one to the next;
* `Machine.IsSafe`, `Machine.execute_isSafe` — all states of a run.
-/

/-! ### Instructions -/

namespace Tiles

variable {code : Array Word} {start stop : Nat} {instructions : List (Nat × Instruction)}

theorem start_mem (h : Tiles code start instructions stop) :
    start ∈ instructions.map Prod.fst ++ [stop] := by
  cases h with
  | done => exact List.mem_cons_self
  | next => exact List.mem_cons_self

/-- What stands where an instruction begins, and where the one behind it begins. -/
theorem of_mem (h : Tiles code start instructions stop) {ip : Nat} {instruction : Instruction}
    (hmem : (ip, instruction) ∈ instructions) :
    (∃ word, code[ip]? = some word ∧ Instruction.decode word = .ok instruction) ∧
      ∃ size, instructionSize code ip instruction.opcode = .ok size ∧
        ip + size ∈ instructions.map Prod.fst ++ [stop] := by
  induction h with
  | done => cases hmem
  | next hword hdecode hsize hrest ih =>
    obtain heq | hmem := List.mem_cons.mp hmem
    · obtain ⟨rfl, rfl⟩ := Prod.mk.inj heq
      exact ⟨⟨_, hword, hdecode⟩, _, hsize, List.mem_cons_of_mem _ hrest.start_mem⟩
    · obtain ⟨hword, size, hsize, hnext⟩ := ih hmem
      exact ⟨hword, size, hsize, List.mem_cons_of_mem _ hnext⟩

end Tiles

/-- The registers that the command mentions exist, and its jump leads to one of the given offsets. -/
structure Command.IsIn (shader : Shader) (offsets : List Nat) (command : Command) : Prop where
  has : ∀ address ∈ command.mentions, shader.Has address
  jump : ∀ condition target, command = .jump condition target →
    ∃ offset ∈ offsets, target = some offset

/-- The instruction is none that the machine can perform: it has no operation, or converts to a type
    that its operation does not produce. -/
def Fault.IsOfKey (instruction : Instruction) (fault : Fault) : Prop :=
  fault = .noOperation instruction ∨ ∃ type, fault = .cannotProduce instruction type

/-- Calls and conditionals come from instructions of their own. -/
theorem Command.opcode_of_decode {code : Array Word} {ip : Nat} {instruction : Instruction}
    {command : Command} (h : decode code ip instruction = .ok command) :
    (∀ function result arguments, command = .call function result arguments →
        instruction.opcode = .call) ∧
      ∀ predicate, command = .generateMask predicate → instruction.opcode = .generateMask := by
  constructor
  · rintro function result arguments rfl
    cases decode_eq_ok.mp h with
    | call hopcode => exact hopcode
  · rintro predicate rfl
    cases decode_eq_ok.mp h with
    | generateMask hopcode => exact hopcode

namespace Shader

variable {shader : Shader} {offsets : List Nat} {ip : Nat} {instruction : Instruction}

/-- What is not the end of the code is an instruction. -/
theorem ConsistsOf.exists_mem {instructions : List (Nat × Instruction)} {word : Word}
    (h : shader.ConsistsOf instructions)
    (hip : ip ∈ instructions.map Prod.fst ++ [shader.code.size])
    (hword : shader.code[ip]? = some word) :
    ∃ instruction, (ip, instruction) ∈ instructions ∧ Instruction.decode word = .ok instruction := by
  have hlt : ip < shader.code.size := (Array.getElem?_eq_some_iff.mp hword).1
  obtain hstart | hend := List.mem_append.mp hip
  · obtain ⟨⟨_, instruction⟩, hmem, rfl⟩ := List.mem_map.mp hstart
    obtain ⟨⟨word', hword', hdecode⟩, -⟩ := h.tiles.of_mem hmem
    obtain rfl := Option.some.inj (hword.symm.trans hword')
    exact ⟨instruction, hmem, hdecode⟩
  · exact absurd (List.mem_singleton.mp hend) (Nat.ne_of_lt hlt)

theorem IsSound.address {size n : Nat} (h : shader.IsSound offsets ip instruction)
    (hsize : instructionSize shader.code ip instruction.opcode = .ok size)
    (hn : n ∈ instruction.opcode.addressPlaces size) :
    ∃ address, Command.address shader.code ip n = .ok address ∧ shader.Has address := by
  obtain ⟨size', hsize', -, hwords⟩ := h.words
  obtain rfl := Except.ok.inj (hsize.symm.trans hsize')
  obtain ⟨word, address, hword, haddress, hhas⟩ := hwords n hn
  refine ⟨address, ?_, hhas⟩
  have hfetch : Command.word shader.code ip n = .ok word := fetch_eq_ok.mpr hword
  simp [Command.address, hfetch, haddress]

/-- A sound call is decoded to a call of a builtin, with as many arguments as it says. -/
theorem IsSound.decode_call {key : Key} (h : shader.IsSound offsets ip ⟨.call, key⟩) :
    ∃ command, Command.decode shader.code ip ⟨.call, key⟩ = .ok command ∧
      command.IsIn shader offsets := by
  obtain ⟨word, count, function, hword, hfunction, hcount, hleast, hmost, hsize⟩ := h.call rfl
  obtain ⟨result, hresult, hhas⟩ := h.address (n := 2) hsize List.mem_cons_self
  have hargument : ∀ n ∈ List.range count.toNat, ∃ address,
      Command.address shader.code ip (4 + n) = .ok address ∧ shader.Has address := by
    intro n hn
    refine h.address hsize (List.mem_cons_of_mem _ (List.mem_range'_1.mpr ?_))
    have hlt := List.mem_range.mp hn
    omega
  have hmapM : FaultsOnly (fun _ => False)
      ((List.range count.toNat).mapM fun n => Command.address shader.code ip (4 + n)) :=
    faultsOnly_mapM fun n hn => .of_ok ((hargument n hn).imp fun _ => And.left)
  obtain ⟨arguments, harguments⟩ := hmapM.exists_ok
  have hhas' : ∀ address ∈ arguments, shader.Has address := by
    intro address haddress
    obtain ⟨n, hn, hread⟩ := exists_of_mem_mapM harguments haddress
    obtain ⟨address', hread', hhas⟩ := hargument n hn
    exact Except.ok.inj (hread.symm.trans hread') ▸ hhas
  exact ⟨.call function result arguments,
    Command.decode_eq_ok.mpr (.call rfl hword hfunction hresult hcount hleast hmost harguments),
    List.forall_mem_cons.mpr ⟨hhas, hhas'⟩, by simp⟩

/-- A sound conversion is decoded, unless its operation produces some other type. -/
theorem IsSound.decode_convert {key : Key} {op : PointOp} (h : shader.IsSound offsets ip ⟨.convert, key⟩)
    (hop : Command.pointOp ⟨.convert, key⟩ = .ok op) :
    (∃ command, Command.decode shader.code ip ⟨.convert, key⟩ = .ok command ∧
      command.IsIn shader offsets) ∨
    ∃ type, Command.decode shader.code ip ⟨.convert, key⟩
      = .error (.cannotProduce ⟨.convert, key⟩ type) := by
  obtain ⟨result, hresult, hhas⟩ := h.address rfl List.mem_cons_self
  obtain ⟨operand, hoperand, hhas'⟩ := h.address rfl (List.mem_cons_of_mem _ List.mem_cons_self)
  obtain ⟨word, type, hword, htype⟩ := h.convert rfl
  have hword : Command.word shader.code ip 3 = .ok word := fetch_eq_ok.mpr hword
  by_cases hwidth : type.components = op.width
  · exact .inl ⟨.compute op (some type) result operand operand,
      by simp [Command.decode, hop, hresult, hoperand, hword, Command.oneWithCode, htype, hwidth],
      by simp [Command.mentions, hhas, hhas'], by simp⟩
  · refine .inr ⟨type, ?_⟩
    simp only [Command.decode, hop, hresult, hoperand, hword, Command.oneWithCode, ok_bind, htype]
    rw [if_pos hwidth, throw_eq, error_bind]

/-- **Decoding.**  A sound instruction is decoded to a command whose operands exist, unless it is none
    that can be performed. -/
theorem IsSound.decode (h : shader.IsSound offsets ip instruction) :
    (∃ command, Command.decode shader.code ip instruction = .ok command ∧
      command.IsIn shader offsets) ∨
    ∃ fault, Command.decode shader.code ip instruction = .error fault ∧
      fault.IsOfKey instruction := by
  -- a sound key may still name shapes that no operation of the opcode is for
  have hpointOp : (∃ op, Command.pointOp instruction = .ok op) ∨
      Command.pointOp instruction = .error (.noOperation instruction) := by
    unfold Command.pointOp
    split
    · exact .inl ⟨_, rfl⟩
    · exact .inr rfl
  obtain ⟨opcode, key⟩ := instruction
  cases opcode with
  | null | halt | reset | clearMask | invertMask =>
    exact .inl ⟨_, rfl, by simp [Command.mentions], by simp⟩
  | generateMask =>
    obtain ⟨predicate, hpredicate, hhas⟩ := h.address (n := 1) rfl (List.mem_range'_1.mpr (by decide))
    exact .inl ⟨.generateMask predicate, by simp [Command.decode, hpredicate],
      by simpa [Command.mentions] using hhas, by simp⟩
  | evaluate =>
    obtain ⟨name, hname, hhas⟩ := h.address (n := 1) rfl (List.mem_range'_1.mpr (by decide))
    exact .inl ⟨.evaluate name, by simp [Command.decode, hname],
      by simpa [Command.mentions] using hhas, by simp⟩
  | jump condition =>
    obtain ⟨word, hword, hmem⟩ := h.jump condition rfl
    refine .inl ⟨.jump condition (some word.toNat), by simp [Command.decode, hword],
      by simp [Command.mentions], ?_⟩
    rintro _ _ ⟨⟩
    exact ⟨_, hmem, rfl⟩
  | transform | arithmetic | test =>
    obtain ⟨result, hresult, hhas⟩ := h.address (n := 1) rfl (List.mem_range'_1.mpr (by decide))
    obtain ⟨first, hfirst, hhas'⟩ := h.address (n := 2) rfl (List.mem_range'_1.mpr (by decide))
    obtain ⟨last, hlast, hhas''⟩ := h.address (n := 3) rfl (List.mem_range'_1.mpr (by decide))
    obtain ⟨op, hop⟩ | hnone := hpointOp
    · exact .inl ⟨.compute op none result first last,
        by simp [Command.decode, hop, hresult, hfirst, hlast],
        by simp [Command.mentions, hhas, hhas', hhas''], by simp⟩
    · exact .inr ⟨_, by simp [Command.decode, hnone, error_bind], .inl rfl⟩
  | negate | promote =>
    obtain ⟨result, hresult, hhas⟩ := h.address (n := 1) rfl (List.mem_range'_1.mpr (by decide))
    obtain ⟨operand, hoperand, hhas'⟩ := h.address (n := 2) rfl (List.mem_range'_1.mpr (by decide))
    obtain ⟨op, hop⟩ | hnone := hpointOp
    · exact .inl ⟨.compute op none result operand operand,
        by simp [Command.decode, hop, hresult, hoperand],
        by simp [Command.mentions, hhas, hhas'], by simp⟩
    · exact .inr ⟨_, by simp [Command.decode, hnone, error_bind], .inl rfl⟩
  | convert =>
    obtain ⟨op, hop⟩ | hnone := hpointOp
    · refine (h.decode_convert hop).imp_right ?_
      rintro ⟨type, hfault⟩
      exact ⟨_, hfault, .inr ⟨type, rfl⟩⟩
    · exact .inr ⟨_, by simp [Command.decode, hnone, error_bind], .inl rfl⟩
  | assign operator =>
    obtain ⟨target, htarget, hhas⟩ := h.address (n := 1) rfl (List.mem_range'_1.mpr (by decide))
    obtain ⟨source, hsource, hhas'⟩ := h.address (n := 2) rfl (List.mem_range'_1.mpr (by decide))
    cases hupdate : Update.ofInstruction? ⟨.assign operator, key⟩ with
    | none => exact .inr ⟨_, by simp [Command.decode, hupdate, throw_eq], .inl rfl⟩
    | some update =>
      exact .inl ⟨.assign update target source, by simp [Command.decode, hupdate, htarget, hsource],
        by simp [Command.mentions, hhas, hhas'], by simp⟩
  | call => exact .inl h.decode_call

/-- The command at one of the instructions is the one that the instruction is decoded to. -/
theorem ConsistsOf.isIn {instructions : List (Nat × Instruction)} {command : Command}
    (h : shader.ConsistsOf instructions) (hip : ip ∈ instructions.map Prod.fst ++ [shader.code.size])
    (hcommand : shader.CommandAt ip command) :
    command.IsIn shader (instructions.map Prod.fst ++ [shader.code.size]) := by
  obtain ⟨word, instruction, hword, hinstruction, hdecode⟩ := hcommand
  obtain ⟨instruction', hmem, hinstruction'⟩ := h.exists_mem hip hword
  obtain rfl := Except.ok.inj (hinstruction.symm.trans hinstruction')
  obtain ⟨command', hdecode', hin⟩ | ⟨fault, hfault, -⟩ := (h.isSound _ hmem).decode
  · exact Except.ok.inj (hdecode.symm.trans hdecode') ▸ hin
  · cases hdecode.symm.trans hfault

end Shader

/-! ### Runs -/

namespace Machine

variable {σ : Type} {renderer : Renderer σ} {shader : Shader} {machine next : Machine σ}
  {instructions : List (Nat × Instruction)} {points : Nat} {word : Word} {flow : Flow}

/-- A machine in a run over so many points: it is where an instruction begins or at the end of the
    code, has all the registers of the shader, and holds values that suit the points. -/
structure Underway (shader : Shader) (instructions : List (Nat × Instruction)) (points : Nat)
    (machine : Machine σ) : Prop where
  ip_mem : machine.ip ∈ instructions.map Prod.fst ++ [shader.code.size]
  isOver : machine.Over points
  symbols : machine.registers.symbols.size = shader.symbols.size
  temporaries : shader.temporaries ≤ machine.registers.temporaries.size
  room : 48 * machine.registers.temporaries.size < 0x8000000000000000

/-- A run starts with a machine that is underway. -/
theorem Underway.start {grid : Grid} {loaded first : Machine σ} (hgrid : grid.IsValid)
    (hdeclared : Declared shader.name shader.constants shader.symbols)
    (hcode : shader.ConsistsOf instructions) (hload : load shader grid machine = .ok loaded)
    (hready : loaded.ready shader = .ok first) :
    first.Underway shader instructions (grid.width * grid.height) := by
  obtain ⟨hsize, hover, hip⟩ := start_over hgrid hdeclared hload hready
  obtain ⟨-, cleared, registers, hcleared, hregisters, rfl⟩ := ready_eq_ok.mp hready
  obtain ⟨-, rfl⟩ := Registers.clearTemporaries_eq_ok.mp hcleared
  obtain ⟨hroom, rfl⟩ := Registers.clearTemporaries_eq_ok.mp hregisters
  refine ⟨hip ▸ hcode.tiles.start_mem, hover, hsize, ?_, ?_⟩
  · simp only [Array.size_replicate]
    exact Nat.le_max_right _ _
  · simpa only [Array.size_replicate] using hroom

/-- A step ends in the faults of the command, or in those of an instruction that is none. -/
theorem step_faultsOnly {allowed : Fault → Prop} {instruction : Instruction}
    (hcode : shader.ConsistsOf instructions) (hmem : (machine.ip, instruction) ∈ instructions)
    (hinstruction : Instruction.decode word = .ok instruction)
    (hkey : ∀ fault, fault.IsOfKey instruction → allowed fault)
    (hperform : ∀ command, Command.decode shader.code machine.ip instruction = .ok command →
      command.IsIn shader (instructions.map Prod.fst ++ [shader.code.size]) →
      FaultsOnly allowed ({ machine with executed := machine.executed + 1 }.perform renderer shader
        instruction command)) :
    FaultsOnly allowed (machine.step renderer shader word) := by
  obtain ⟨-, size, hsize, -⟩ := hcode.tiles.of_mem hmem
  unfold Machine.step
  rw [hinstruction]
  obtain ⟨command, hcommand, hin⟩ | ⟨fault, hfault, hkey'⟩ := (hcode.isSound _ hmem).decode
  · simp only [Except.mapError, ok_bind, hcommand]
    refine faultsOnly_bind.mpr ⟨hperform command hcommand hin, fun result _ => ?_⟩
    obtain ⟨flow, last⟩ := result
    cases flow with
    | next => exact faultsOnly_bind.mpr ⟨.of_ok ⟨size, hsize⟩, fun _ _ => faultsOnly_pure⟩
    | jump target => exact faultsOnly_pure
    | halt => exact faultsOnly_pure
  · simp only [Except.mapError, ok_bind, hfault, error_bind]
    exact faultsOnly_error.mpr (hkey fault hkey')

namespace Underway

variable (h : machine.Underway shader instructions points)

include h

/-- What the shader has an address for can be read. -/
theorem read {address : Address} (hhas : shader.Has address) :
    ∃ value, machine.registers.read shader.constants address = .ok value := by
  cases address with
  | constant i => exact ⟨_, fetch_eq_ok.mpr (Array.getElem?_eq_getElem hhas)⟩
  | symbol i =>
    exact ⟨_, fetch_eq_ok.mpr (Array.getElem?_eq_getElem (h.symbols.symm ▸ hhas))⟩
  | temporary i =>
    exact ⟨_, fetch_eq_ok.mpr (Array.getElem?_eq_getElem (Nat.lt_of_lt_of_le hhas h.temporaries))⟩

/-- **Steps.**  A machine that is underway stays so. -/
theorem step (hcode : shader.ConsistsOf instructions) (hrenderer : renderer.OnlyWritesFloats)
    (hconstants : Value.AllOver points shader.constants)
    (hword : shader.code[machine.ip]? = some word)
    (hstep : machine.step renderer shader word = .ok (flow, next)) :
    next.Underway shader instructions points := by
  obtain ⟨instruction, command, last, hinstruction, hcommand, hperform, hmoved⟩ := step_eq_ok.mp hstep
  obtain ⟨instruction', hmem, hinstruction'⟩ := hcode.exists_mem h.ip_mem hword
  obtain rfl := Except.ok.inj (hinstruction.symm.trans hinstruction')
  have hperformed := perform_eq_ok.mp hperform
  have hsizes := hperformed.sameSizes hrenderer.keepsCount
  have hover : last.Over points := hperformed.over hrenderer hconstants h.isOver.counted
  -- what is no jump goes on to the instruction behind it
  have hoffset : next.ip ∈ instructions.map Prod.fst ++ [shader.code.size] := by
    cases hperformed with
    | jump condition target htaken =>
      obtain rfl := Except.ok.inj hmoved
      have hin := hcode.isIn h.ip_mem ⟨word, instruction, hword, hinstruction, hcommand⟩
      obtain ⟨offset, hoffset, htarget⟩ := hin.jump _ _ rfl
      exact Option.some.inj htarget ▸ hoffset
    | halt =>
      obtain rfl := Except.ok.inj hmoved
      exact h.ip_mem
    | _ =>
      obtain ⟨size, hsize, hnext⟩ := bind_eq_ok.mp hmoved
      obtain rfl := pure_eq_ok.mp hnext
      obtain ⟨-, size', hsize', hmem'⟩ := hcode.tiles.of_mem hmem
      exact Except.ok.inj (hsize.symm.trans hsize') ▸ hmem'
  obtain ⟨offset, rfl⟩ := eq_of_moved hmoved
  refine ⟨hoffset, ⟨hover.points_eq, hover.masks, hover.registers⟩, hsizes.symbols.trans h.symbols,
    ?_, ?_⟩
  · show shader.temporaries ≤ last.registers.temporaries.size
    exact hsizes.temporaries ▸ h.temporaries
  · show 48 * last.registers.temporaries.size < 0x8000000000000000
    exact hsizes.temporaries ▸ h.room

/-- What a command needs of a machine to be carried out or refused. -/
theorem commandReady {command : Command} (hin : command.IsIn shader
    (instructions.map Prod.fst ++ [shader.code.size])) :
    (∀ address ∈ command.mentions,
      ∃ value, machine.registers.read shader.constants address = .ok value) ∧
      ∀ condition, command ≠ .jump condition none := by
  refine ⟨fun address haddress => h.read (hin.has address haddress), ?_⟩
  rintro condition rfl
  obtain ⟨_, -, htarget⟩ := hin.jump condition none rfl
  cases htarget

/-- A step does not complain about code. -/
theorem step_onValues (hcode : shader.ConsistsOf instructions)
    (hconstants : Value.AllOver points shader.constants)
    (hword : shader.code[machine.ip]? = some word) :
    OnValues (machine.step renderer shader word) := by
  obtain ⟨instruction, hmem, hinstruction⟩ := hcode.exists_mem h.ip_mem hword
  refine step_faultsOnly hcode hmem hinstruction ?_ fun command hcommand hin => ?_
  · rintro fault (rfl | ⟨type, rfl⟩) <;> rfl
  · obtain ⟨hreads, hjump⟩ := h.commandReady hin
    exact perform_onValues h.isOver.counted hconstants (Command.fits_of_decode hcommand) h.room hreads
      hjump

/-- A step that calls no builtin and enters no conditional is refused or carried out. -/
theorem step_checked {instruction : Instruction} (hcode : shader.ConsistsOf instructions)
    (hconstants : Value.AllOver points shader.constants)
    (hword : shader.code[machine.ip]? = some word)
    (hinstruction : Instruction.decode word = .ok instruction) (hcall : instruction.opcode ≠ .call)
    (hgenerate : instruction.opcode ≠ .generateMask) :
    Checked points (machine.step renderer shader word) := by
  obtain ⟨instruction', hmem, hinstruction'⟩ := hcode.exists_mem h.ip_mem hword
  obtain rfl := Except.ok.inj (hinstruction.symm.trans hinstruction')
  refine step_faultsOnly hcode hmem hinstruction ?_ fun command hcommand hin => ?_
  · rintro fault (rfl | ⟨type, rfl⟩) <;> exact .inl rfl
  · obtain ⟨hreads, hjump⟩ := h.commandReady hin
    obtain ⟨hcalls, hmasks⟩ := Command.opcode_of_decode hcommand
    exact perform_checked h.isOver.counted hconstants (Command.fits_of_decode hcommand) h.room hreads
      hjump (fun _ _ _ heq => hcall (hcalls _ _ _ heq)) fun _ heq => hgenerate (hmasks _ heq)

end Underway

/-- All that is safe about a machine at one of the given offsets, in a run over so many points. -/
structure IsSafe (renderer : Renderer σ) (shader : Shader) (offsets : List Nat) (points : Nat)
    (machine : Machine σ) : Prop where
  /-- The machine is at one of the offsets. -/
  ip_mem : machine.ip ∈ offsets
  /-- What stands there is an instruction with all its words, which can be decoded, unless it has no
      operation or converts to a type that its operation does not produce. -/
  decodes : ∀ word, shader.code[machine.ip]? = some word → ∃ instruction size,
    Instruction.decode word = .ok instruction ∧
    instructionSize shader.code machine.ip instruction.opcode = .ok size ∧
    machine.ip + size ≤ shader.code.size ∧
    FaultsOnly (Fault.IsOfKey instruction) (Command.decode shader.code machine.ip instruction)
  /-- The registers that the command mentions exist. -/
  reads : ∀ command, shader.CommandAt machine.ip command → ∀ address ∈ command.mentions,
    ∃ value, machine.registers.read shader.constants address = .ok value
  /-- Registers and masks suit the points. -/
  isOver : machine.Over points
  /-- No step complains about code. -/
  onValues : ∀ word, shader.code[machine.ip]? = some word →
    OnValues (machine.step renderer shader word)
  /-- A step that calls no builtin and enters no conditional succeeds, or the machine says why not,
      unless the grid is so large that a matrix for each of its points could not be held. -/
  asserts : ∀ word instruction, shader.code[machine.ip]? = some word →
    Instruction.decode word = .ok instruction → instruction.opcode ≠ .call →
    instruction.opcode ≠ .generateMask →
    FaultsOnly (fun fault => fault.IsAssertion ∨ fault = .tooLarge ∧ 0x8000000000000000 ≤ 64 * points)
      (machine.step renderer shader word)

theorem Underway.isSafe (h : machine.Underway shader instructions points)
    (hcode : shader.ConsistsOf instructions) (hconstants : Value.AllOver points shader.constants) :
    machine.IsSafe renderer shader (instructions.map Prod.fst ++ [shader.code.size]) points := by
  refine ⟨h.ip_mem, fun word hword => ?_, ?_, h.isOver, fun word hword => ?_, ?_⟩
  · obtain ⟨instruction, hmem, hinstruction⟩ := hcode.exists_mem h.ip_mem hword
    have hsound := hcode.isSound _ hmem
    obtain ⟨size, hsize, hle, -⟩ := hsound.words
    refine ⟨instruction, size, hinstruction, hsize, hle, ?_⟩
    obtain ⟨command, hcommand, -⟩ | ⟨fault, hfault, hkey⟩ := hsound.decode
    · exact .of_ok ⟨command, hcommand⟩
    · rw [hfault]
      exact faultsOnly_error.mpr hkey
  · intro command hcommand
    exact (h.commandReady (hcode.isIn h.ip_mem hcommand)).1
  · exact h.step_onValues hcode hconstants hword
  · intro word instruction hword hinstruction hcall hgenerate
    exact (h.step_checked hcode hconstants hword hinstruction hcall hgenerate).mono
      fun _ => Or.imp_left Fault.isAssertion_of_isCheck

/-- **Index safety.**  Let a text describe a shader, and let the renderer do no more than overwrite
    floats.  Whatever state the shader's run over a valid grid comes to, the machine is where an
    instruction begins or at the end of the code, and is safe there. -/
theorem execute_isSafe {text : String} {grid : Grid} {loaded first : Machine σ}
    (hassemble : assemble text = .ok shader) (hsize : shader.code.size < 4294967296)
    (hgrid : grid.IsValid) (hrenderer : renderer.OnlyWritesFloats)
    (hload : load shader grid machine = .ok loaded) (hready : loaded.ready shader = .ok first)
    (turns : Nat) :
    ∃ instructions, walk shader.code = .ok ⟨instructions, none⟩ ∧
      (execute renderer shader turns loaded).2.IsSafe renderer shader
        (instructions.map Prod.fst ++ [shader.code.size]) (grid.width * grid.height) := by
  obtain ⟨operations, hmade⟩ := assemble_isMadeOf hassemble
  have hdeclared := assemble_declared hassemble
  have hcode := hmade.consistsOf hsize
  refine ⟨_, hmade.walk_eq, ?_⟩
  rw [execute_eq (start_over hgrid hdeclared hload hready).1 hready]
  refine Underway.isSafe ?_ hcode hdeclared.allOver
  exact run_invariant (Underway shader _ _) (fun machine next word flow hmachine hword hstep =>
    hmachine.step hcode hrenderer hdeclared.allOver hword hstep) turns
    (.start hgrid hdeclared hcode hload hready)

theorem execute_isSafe_grey : ∃ loaded first : Machine Unit,
    load grey twoPoints idle = .ok loaded ∧ loaded.ready grey = .ok first ∧
      ∃ instructions, walk grey.code = .ok ⟨instructions, none⟩ ∧
        (execute (.ofScene .still) grey 2 loaded).2.IsSafe (.ofScene .still) grey
          (instructions.map Prod.fst ++ [grey.code.size]) (twoPoints.width * twoPoints.height) := by
  have hstarts : (load grey twoPoints idle >>= fun loaded => loaded.ready grey).isOk = true := by
    decide +kernel
  cases hstart : load grey twoPoints idle >>= fun loaded => loaded.ready grey with
  | error fault =>
    rw [hstart] at hstarts
    cases hstarts
  | ok first =>
    obtain ⟨loaded, hload, hready⟩ := bind_eq_ok.mp hstart
    exact ⟨loaded, first, hload, hready, execute_isSafe assemble_greyText (by decide)
      twoPoints_isValid (Renderer.ofScene_onlyWritesFloats _) hload hready 2⟩

end Machine

end Shading
