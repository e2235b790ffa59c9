import Shading.Proofs.Relisting
import Shading.Proofs.Safety
import Shading.Proofs.Truncation

namespace Shading

/-!
# Code that only jumps forward comes to an end

If every jump leads to a later instruction or beyond the end of the code, the offset of a machine only
grows, whatever its masks make of the jumps.  So each instruction is taken up at most once, and a run
without a limit ends after no more instructions than the code has.  The code need not have been
assembled: all that is asked is that it can be walked through.

* `Shader.JumpsForward` — such code;
* `Machine.turn_forward` — a turn leads on to a later instruction;
* `Machine.visits`, `Machine.visits_forward` — a run takes instructions up in their order;
* `Machine.run_ends` — so it comes to an end;
* `Machine.EndsWithin`, `Machine.SettlesWithin` — what this means for execution and for shading.
-/

/-! ### Code -/

/-- A walk that no word stops goes from instruction to instruction to the end of the code.  The last
    instruction may lack words. -/
theorem exists_tiles_of_walkFrom {code : Array Word} {count ip : Nat}
    {instructions : List (Nat × Instruction)}
    (h : walkFrom code count ip = .ok ⟨instructions, none⟩) (hcount : code.size ≤ ip + count) :
    ∃ stop, code.size ≤ stop ∧ Tiles code ip instructions stop := by
  induction count generalizing ip instructions with
  | zero =>
    obtain ⟨rfl, -⟩ := Walk.mk.inj (Except.ok.inj h)
    exact ⟨ip, hcount, .done ip⟩
  | succ count ih =>
    rw [walkFrom] at h
    split at h
    · next hip =>
      split at h
      · simp at h
      · next instruction hdecode =>
        simp only [bind_eq_ok, pure_eq_ok] at h
        obtain ⟨size, hsize, ⟨rest, ended⟩, hrest, hwalk⟩ := h
        obtain ⟨rfl, rfl⟩ := Walk.mk.inj hwalk
        have hpos := Tiles.instructionSize_pos hsize
        obtain ⟨stop, hstop, htiles⟩ := ih hrest (by omega)
        exact ⟨stop, hstop, .next (Array.getElem?_eq_getElem hip) hdecode hsize htiles⟩
    · next hip =>
      obtain ⟨rfl, -⟩ := Walk.mk.inj (Except.ok.inj h)
      exact ⟨ip, by omega, .done ip⟩

/-- What an instruction that halts or jumps is decoded from. -/
def Command.Directs (code : Array Word) (ip : Nat) (opcode : Opcode) : Command → Prop
  | .halt => opcode = .halt
  | .jump condition target => opcode = .jump condition ∧ target = code[ip + 1]?.map UInt32.toNat
  | _ => True

theorem Command.directs_of_decode {code : Array Word} {ip : Nat} {instruction : Instruction}
    {command : Command} (h : decode code ip instruction = .ok command) :
    command.Directs code ip instruction.opcode := by
  cases decode_eq_ok.mp h with
  | halt hopcode => exact hopcode
  | jump hopcode => exact ⟨hopcode, rfl⟩
  | _ => trivial

namespace Shader

variable {shader : Shader} {instructions : List (Nat × Instruction)}

/-- One of the instructions begins here, or the code has ended. -/
def IsStop (shader : Shader) (instructions : List (Nat × Instruction)) (ip : Nat) : Prop :=
  ip ∈ instructions.map Prod.fst ∨ shader.code.size ≤ ip

/-- The code can be walked through, and the jumps among its instructions lead forward, to other
    instructions or beyond the end.  A jump at the very end may lack its target. -/
structure JumpsForward (shader : Shader) (instructions : List (Nat × Instruction)) : Prop where
  walk_eq : walk shader.code = .ok ⟨instructions, none⟩
  target : ∀ ip instruction condition target, (ip, instruction) ∈ instructions →
    instruction.opcode = .jump condition → shader.code[ip + 1]? = some target →
      ip < target.toNat ∧ shader.IsStop instructions target.toNat

namespace JumpsForward

theorem exists_tiles (h : shader.JumpsForward instructions) :
    ∃ stop, shader.code.size ≤ stop ∧ Tiles shader.code 0 instructions stop :=
  exists_tiles_of_walkFrom h.walk_eq (Nat.le_add_left _ _)

/-- A run starts at an instruction, unless there is none. -/
theorem isStop_zero (h : shader.JumpsForward instructions) : shader.IsStop instructions 0 := by
  obtain ⟨stop, hstop, htiles⟩ := h.exists_tiles
  obtain hmem | hend := List.mem_append.mp htiles.start_mem
  · exact .inl hmem
  · exact .inr (List.mem_singleton.mp hend ▸ hstop)

/-- Where there is a word an instruction begins, and another stop is behind it. -/
theorem exists_next (h : shader.JumpsForward instructions) {ip : Nat} {word : Word}
    (hip : shader.IsStop instructions ip) (hword : shader.code[ip]? = some word) :
    ∃ instruction size, (ip, instruction) ∈ instructions ∧
      Instruction.decode word = .ok instruction ∧
      instructionSize shader.code ip instruction.opcode = .ok size ∧
      ip < ip + size ∧ shader.IsStop instructions (ip + size) := by
  obtain ⟨stop, hstop, htiles⟩ := h.exists_tiles
  have hlt : ip < shader.code.size := (Array.getElem?_eq_some_iff.mp hword).1
  obtain ⟨⟨_, instruction⟩, hmem, rfl⟩ := List.mem_map.mp (hip.resolve_right (by omega))
  obtain ⟨⟨word', hword', hdecode⟩, size, hsize, hnext⟩ := htiles.of_mem hmem
  obtain rfl := Option.some.inj (hword.symm.trans hword')
  have hpos := Tiles.instructionSize_pos hsize
  refine ⟨instruction, size, hmem, hdecode, hsize, Nat.lt_add_of_pos_right hpos, ?_⟩
  obtain hmem' | hend := List.mem_append.mp hnext
  · exact .inl hmem'
  · exact .inr (List.mem_singleton.mp hend ▸ hstop)

end JumpsForward

end Shader

namespace Machine

variable {σ : Type} {renderer : Renderer σ} {shader : Shader} {machine next first last : Machine σ}
  {instructions : List (Nat × Instruction)} {outcome : Outcome} {turns : Nat}

/-! ### Turns -/

/-- **Steps.**  A turn that goes on leads to a later instruction, or beyond the end of the code. -/
theorem turn_forward (h : shader.JumpsForward instructions)
    (hip : shader.IsStop instructions machine.ip) (hturn : turn renderer shader machine = .on next) :
    machine.ip < next.ip ∧ shader.IsStop instructions next.ip := by
  obtain ⟨word, flow, hword, -, hstep, hflow⟩ := turn_eq_on.mp hturn
  obtain ⟨instruction, command, after, hinstruction, hcommand, hperform, hmoved⟩ :=
    step_eq_ok.mp hstep
  obtain ⟨instruction', size, hmem, hinstruction', hsize, hlt, hnext⟩ := h.exists_next hip hword
  obtain rfl := Except.ok.inj (hinstruction.symm.trans hinstruction')
  have hdirects := Command.directs_of_decode hcommand
  cases perform_eq_ok.mp hperform with
  | halt => exact absurd rfl hflow
  | jump condition target htaken =>
    -- the target is in the code, since the jump is taken
    obtain rfl := Except.ok.inj hmoved
    obtain ⟨hopcode, htarget⟩ := hdirects
    obtain ⟨word', hword', rfl⟩ := Option.map_eq_some_iff.mp htarget.symm
    exact h.target _ _ _ _ hmem hopcode hword'
  | _ =>
    -- all else goes on to the instruction behind, a jump that is not taken too
    obtain ⟨size', hsize', hafter⟩ := bind_eq_ok.mp hmoved
    obtain rfl := Except.ok.inj (hsize.symm.trans hsize')
    obtain rfl := pure_eq_ok.mp hafter
    exact ⟨hlt, hnext⟩

theorem reachedLimit?_eq_none (h : machine.config.limit = none) : machine.reachedLimit? = none := by
  rw [reachedLimit?, h, Option.filter_none]

/-- A turn without a limit that ends a run finds the end of the code, a fault or a halt. -/
theorem turn_over_cases (hlimit : machine.config.limit = none)
    (h : turn renderer shader machine = .over outcome last) :
    (shader.code.size ≤ machine.ip ∧ outcome = .finished ∧ last = machine) ∨
      ∃ word, shader.code[machine.ip]? = some word ∧
        ((∃ fault, outcome = .failed (.fault fault) ∧ last = machine) ∨
          outcome = .finished ∧ machine.step renderer shader word = .ok (.halt, last)) := by
  rw [turn] at h
  split at h
  · next hend =>
    cases h
    exact .inl ⟨Array.getElem?_eq_none_iff.mp hend, rfl, rfl⟩
  · next word hword =>
    rw [reachedLimit?_eq_none hlimit] at h
    refine .inr ⟨word, hword, ?_⟩
    dsimp only at h
    split at h
    · cases h
      exact .inl ⟨_, rfl, rfl⟩
    · next hstep =>
      cases h
      exact .inr ⟨rfl, hstep⟩
    · cases h

/-- What halts a run is an instruction for it, and the machine stays there. -/
theorem halt_of_step (h : shader.JumpsForward instructions)
    (hip : shader.IsStop instructions machine.ip) {word : Word}
    (hword : shader.code[machine.ip]? = some word)
    (hstep : machine.step renderer shader word = .ok (.halt, last)) :
    ∃ instruction, (last.ip, instruction) ∈ instructions ∧ instruction.opcode = .halt := by
  obtain ⟨instruction, command, after, hinstruction, hcommand, hperform, hmoved⟩ :=
    step_eq_ok.mp hstep
  obtain ⟨instruction', _, hmem, hinstruction', -⟩ := h.exists_next hip hword
  obtain rfl := Except.ok.inj (hinstruction.symm.trans hinstruction')
  have hdirects := Command.directs_of_decode hcommand
  cases perform_eq_ok.mp hperform
  obtain rfl := Except.ok.inj hmoved
  exact ⟨instruction, hmem, hdirects⟩

/-! ### Runs -/

/-- The offsets of the instructions that a run takes up, also of the one that halts it or is at
    fault. -/
def visits (renderer : Renderer σ) (shader : Shader) : Nat → Machine σ → List Nat
  | 0, _ => []
  | turns + 1, machine =>
    if machine.ip < shader.code.size ∧ machine.reachedLimit? = none then
      machine.ip :: match turn renderer shader machine with
        | .on next => visits renderer shader turns next
        | .over _ _ => []
    else
      []

theorem visits_on (hturn : turn renderer shader machine = .on next) :
    visits renderer shader (turns + 1) machine = machine.ip :: visits renderer shader turns next := by
  obtain ⟨word, _, hword, hreached, -⟩ := turn_eq_on.mp hturn
  rw [visits, if_pos ⟨(Array.getElem?_eq_some_iff.mp hword).1, hreached⟩, hturn]

theorem visits_over (hlimit : machine.config.limit = none)
    (hturn : turn renderer shader machine = .over outcome last) :
    visits renderer shader (turns + 1) machine =
      if machine.ip < shader.code.size then [machine.ip] else [] := by
  simp only [visits, hturn, reachedLimit?_eq_none hlimit, and_true]

/-- **Runs.**  The instructions are taken up in their order, from where the machine is. -/
theorem visits_forward (renderer : Renderer σ) (turns : Nat) (h : shader.JumpsForward instructions)
    (hip : shader.IsStop instructions machine.ip) :
    (visits renderer shader turns machine).Pairwise (· < ·) ∧
      ∀ offset ∈ visits renderer shader turns machine,
        machine.ip ≤ offset ∧ offset ∈ instructions.map Prod.fst := by
  induction turns generalizing machine with
  | zero => exact ⟨.nil, by simp [visits]⟩
  | succ turns ih =>
    rw [visits]
    split
    · next hwithin =>
      have hmem : machine.ip ∈ instructions.map Prod.fst := hip.resolve_right (by omega)
      rcases hturn : turn renderer shader machine with next | ⟨outcome, last⟩
      · obtain ⟨hlt, hnext⟩ := turn_forward h hip hturn
        obtain ⟨hincrease, hrest⟩ := ih hnext
        refine ⟨List.pairwise_cons.mpr ⟨?_, hincrease⟩, List.forall_mem_cons.mpr ⟨⟨le_rfl, hmem⟩, ?_⟩⟩
        · intro offset hoffset
          exact hlt.trans_le (hrest offset hoffset).1
        · intro offset hoffset
          exact ⟨hlt.le.trans (hrest offset hoffset).1, (hrest offset hoffset).2⟩
      · exact ⟨List.pairwise_singleton _ _, by simpa using List.mem_map.mp hmem⟩
    · exact ⟨.nil, by simp⟩

/-- No instruction is taken up twice, so there are no more than the code has. -/
theorem length_visits_le (renderer : Renderer σ) (turns : Nat)
    (h : shader.JumpsForward instructions) (hip : shader.IsStop instructions machine.ip) :
    (visits renderer shader turns machine).length ≤ instructions.length := by
  obtain ⟨hincrease, hmem⟩ := visits_forward renderer turns h hip
  have hnodup : (visits renderer shader turns machine).Nodup := hincrease.imp Nat.ne_of_lt
  have hle := (hnodup.subperm fun offset hoffset => (hmem offset hoffset).2).length_le
  rwa [List.length_map] at hle

/-- A run without a limit counts what it takes up, except an instruction at fault. -/
theorem executed_of_visits (hlimit : machine.config.limit = none)
    (h : run renderer shader turns machine = (outcome, last)) :
    (outcome = .finished ∨ outcome = .unfinished) ∧
        last.executed = machine.executed + (visits renderer shader turns machine).length ∨
      (∃ fault, outcome = .failed (.fault fault)) ∧
        last.executed + 1 = machine.executed + (visits renderer shader turns machine).length := by
  induction turns generalizing machine with
  | zero =>
    obtain ⟨rfl, rfl⟩ := Prod.mk.inj h
    exact .inl ⟨.inr rfl, rfl⟩
  | succ turns ih =>
    rw [run] at h
    rcases hturn : turn renderer shader machine with next | ⟨ended, after⟩
    · rw [hturn] at h
      obtain ⟨_, _, -, -, hstep, -⟩ := turn_eq_on.mp hturn
      obtain ⟨hexecuted, hconfig⟩ := count_of_step hstep
      rw [visits_on hturn, List.length_cons]
      obtain ⟨hended, hcount⟩ | ⟨hfault, hcount⟩ := ih (hconfig ▸ hlimit) h
      · exact .inl ⟨hended, by omega⟩
      · exact .inr ⟨hfault, by omega⟩
    · rw [hturn] at h
      obtain ⟨rfl, rfl⟩ := Prod.mk.inj h
      rw [visits_over hlimit hturn]
      obtain ⟨hend, rfl, rfl⟩ | ⟨word, hword, ⟨fault, rfl, rfl⟩ | ⟨rfl, hstep⟩⟩ :=
        turn_over_cases hlimit hturn
      · rw [if_neg (by omega)]
        exact .inl ⟨.inl rfl, rfl⟩
      · rw [if_pos (Array.getElem?_eq_some_iff.mp hword).1]
        exact .inr ⟨⟨fault, rfl⟩, rfl⟩
      · rw [if_pos (Array.getElem?_eq_some_iff.mp hword).1]
        exact .inl ⟨.inl rfl, (count_of_step hstep).1⟩

/-- A run that has finished is at the end of the code, or where an instruction halted it. -/
theorem ip_of_finished (h : shader.JumpsForward instructions)
    (hip : shader.IsStop instructions machine.ip) (hlimit : machine.config.limit = none)
    (hrun : run renderer shader turns machine = (.finished, last)) :
    shader.code.size ≤ last.ip ∨
      ∃ instruction, (last.ip, instruction) ∈ instructions ∧ instruction.opcode = .halt := by
  induction turns generalizing machine with
  | zero => cases hrun
  | succ turns ih =>
    rw [run] at hrun
    rcases hturn : turn renderer shader machine with next | ⟨ended, after⟩
    · rw [hturn] at hrun
      obtain ⟨_, _, -, -, hstep, -⟩ := turn_eq_on.mp hturn
      exact ih (turn_forward h hip hturn).2 ((count_of_step hstep).2 ▸ hlimit) hrun
    · rw [hturn] at hrun
      obtain ⟨rfl, rfl⟩ := Prod.mk.inj hrun
      obtain ⟨hend, -, rfl⟩ | ⟨word, hword, ⟨fault, ⟨⟩, -⟩ | ⟨-, hstep⟩⟩ :=
        turn_over_cases hlimit hturn
      · exact .inl hend
      · exact .inr (halt_of_step h hip hword hstep)

/-- How a run of no more instructions than there are comes to its end: the machine is at the end of the
    code or where an instruction halted it, or there was a fault. -/
theorem run_ends (renderer : Renderer σ) (h : shader.JumpsForward instructions)
    (hip : shader.IsStop instructions machine.ip) (hlimit : machine.config.limit = none)
    (hexecuted : machine.executed = 0) :
    (∃ last, (∀ turns > instructions.length, run renderer shader turns machine = (.finished, last)) ∧
      last.executed ≤ instructions.length ∧
      (shader.code.size ≤ last.ip ∨
        ∃ instruction, (last.ip, instruction) ∈ instructions ∧ instruction.opcode = .halt)) ∨
    ∃ fault last, (∀ turns > instructions.length,
        run renderer shader turns machine = (.failed (.fault fault), last)) ∧
      last.executed < instructions.length := by
  rcases hrun : run renderer shader (instructions.length + 1) machine with ⟨outcome, last⟩
  have hvisits := length_visits_le renderer (instructions.length + 1) h hip
  obtain ⟨rfl | rfl, hcount⟩ | ⟨⟨fault, rfl⟩, hcount⟩ := executed_of_visits hlimit hrun
  · exact .inl ⟨last, fun turns hturns => run_of_le hrun (by simp) hturns, by omega,
      ip_of_finished h hip hlimit hrun⟩
  · -- an unfinished run would have taken up an instruction in each turn
    have hlast : last.executed = machine.executed + (instructions.length + 1) :=
      (executed_of_run hrun).2 rfl
    omega
  · exact .inr ⟨fault, last, fun turns hturns => run_of_le hrun (by simp) hturns, by omega⟩

/-! ### Execution -/

/-- The offsets of the instructions that are taken up when a shader is executed. -/
def itinerary (renderer : Renderer σ) (shader : Shader) (turns : Nat) (machine : Machine σ) :
    List Nat :=
  if machine.registers.symbols.size = shader.symbols.size then
    match machine.ready shader with
    | .ok first => visits renderer shader turns first
    | .error _ => []
  else
    []

/-- Execution is at fault before the first instruction, or runs from there. -/
theorem itinerary_cases (renderer : Renderer σ) (shader : Shader) (machine : Machine σ) :
    (∃ fault, ∀ turns, execute renderer shader turns machine = (.failed (.fault fault), machine) ∧
      itinerary renderer shader turns machine = []) ∨
    ∃ first : Machine σ, first.ip = 0 ∧ first.executed = 0 ∧ first.config = machine.config ∧
      ∀ turns, execute renderer shader turns machine = run renderer shader turns first ∧
        itinerary renderer shader turns machine = visits renderer shader turns first := by
  by_cases hsize : machine.registers.symbols.size = shader.symbols.size
  · cases hready : machine.ready shader with
    | error fault =>
      refine .inl ⟨fault, fun turns => ?_⟩
      rw [execute, itinerary, if_pos hsize, if_pos hsize, hready]
      exact ⟨rfl, rfl⟩
    | ok first =>
      obtain ⟨-, _, _, -, -, hfirst⟩ := ready_eq_ok.mp hready
      refine .inr ⟨first, hfirst ▸ rfl, hfirst ▸ rfl, hfirst ▸ rfl, fun turns => ?_⟩
      rw [execute, itinerary, if_pos hsize, if_pos hsize, hready]
      exact ⟨rfl, rfl⟩
  · exact .inl ⟨_, fun turns => ⟨if_neg hsize, if_neg hsize⟩⟩

/-- A machine executes these instructions in their order, none of them twice, and comes to an end. -/
structure EndsWithin (renderer : Renderer σ) (shader : Shader)
    (instructions : List (Nat × Instruction)) (machine : Machine σ) : Prop where
  increasing : ∀ turns, (itinerary renderer shader turns machine).Pairwise (· < ·)
  subset : ∀ turns, itinerary renderer shader turns machine ⊆ instructions.map Prod.fst
  /-- As long as there is no fault, the machine counts what it takes up. -/
  counted : ∀ turns outcome last, execute renderer shader turns machine = (outcome, last) →
    outcome = .finished ∨ outcome = .unfinished →
      last.executed = (itinerary renderer shader turns machine).length
  /-- An instruction at fault is not counted; a fault may also come before the first of them. -/
  faulted : ∀ turns fault last,
    execute renderer shader turns machine = (.failed (.fault fault), last) →
      last.executed + 1 = (itinerary renderer shader turns machine).length ∨
        last = machine ∧ itinerary renderer shader turns machine = []
  /-- A turn for each instruction and one that finds the end of the code are all that it takes. -/
  ends :
    (∃ last, (∀ turns > instructions.length,
        execute renderer shader turns machine = (.finished, last)) ∧
      last.executed ≤ instructions.length ∧
      (shader.code.size ≤ last.ip ∨
        ∃ instruction, (last.ip, instruction) ∈ instructions ∧ instruction.opcode = .halt)) ∨
    ∃ fault last, (∀ turns > instructions.length,
        execute renderer shader turns machine = (.failed (.fault fault), last)) ∧
      (last.executed < instructions.length ∨ last = machine)

theorem endsWithin_of_fault {fault : Fault} (h : ∀ turns,
    execute renderer shader turns machine = (.failed (.fault fault), machine) ∧
      itinerary renderer shader turns machine = []) :
    machine.EndsWithin renderer shader instructions where
  increasing turns := by
    rw [(h turns).2]
    exact .nil
  subset turns := by
    rw [(h turns).2]
    exact List.nil_subset _
  counted turns outcome last hexecute hended := by
    rw [(h turns).1] at hexecute
    obtain ⟨rfl, -⟩ := Prod.mk.inj hexecute
    obtain ⟨⟨⟩⟩ | ⟨⟨⟩⟩ := hended
  faulted turns _ last hexecute := by
    rw [(h turns).1] at hexecute
    exact .inr ⟨(Prod.mk.inj hexecute).2.symm, (h turns).2⟩
  ends := .inr ⟨fault, machine, fun turns _ => (h turns).1, .inr rfl⟩

theorem endsWithin_of_run (hforward : shader.JumpsForward instructions) (hip : first.ip = 0)
    (hlimit : first.config.limit = none) (hexecuted : first.executed = 0)
    (h : ∀ turns, execute renderer shader turns machine = run renderer shader turns first ∧
      itinerary renderer shader turns machine = visits renderer shader turns first) :
    machine.EndsWithin renderer shader instructions := by
  have hstop : shader.IsStop instructions first.ip := hip ▸ hforward.isStop_zero
  exact {
    increasing turns := by
      rw [(h turns).2]
      exact (visits_forward renderer turns hforward hstop).1
    subset turns := by
      rw [(h turns).2]
      exact fun offset hoffset =>
        ((visits_forward renderer turns hforward hstop).2 offset hoffset).2
    counted turns outcome last hexecute hended := by
      rw [(h turns).1] at hexecute
      rw [(h turns).2]
      obtain ⟨-, hcount⟩ | ⟨⟨_, rfl⟩, -⟩ := executed_of_visits hlimit hexecute
      · omega
      · obtain ⟨⟨⟩⟩ | ⟨⟨⟩⟩ := hended
    faulted turns fault last hexecute := by
      rw [(h turns).1] at hexecute
      rw [(h turns).2]
      obtain ⟨⟨⟨⟩⟩ | ⟨⟨⟩⟩, -⟩ | ⟨-, hcount⟩ := executed_of_visits hlimit hexecute
      exact .inl (by omega)
    ends := by
      simp only [h]
      obtain hfinished | ⟨fault, last, hrun, hcount⟩ :=
        run_ends renderer hforward hstop hlimit hexecuted
      · exact .inl hfinished
      · exact .inr ⟨fault, last, hrun, .inl hcount⟩ }

theorem endsWithin (renderer : Renderer σ) (h : shader.JumpsForward instructions)
    (hlimit : machine.config.limit = none) : machine.EndsWithin renderer shader instructions := by
  obtain ⟨fault, hexecute⟩ | ⟨first, hip, hexecuted, hconfig, hexecute⟩ :=
    itinerary_cases renderer shader machine
  · exact endsWithin_of_fault hexecute
  · exact endsWithin_of_run h hip (hconfig ▸ hlimit) hexecuted hexecute

theorem EndsWithin.exists_last (h : machine.EndsWithin renderer shader instructions) :
    ∃ outcome last, (∀ turns > instructions.length,
        execute renderer shader turns machine = (outcome, last)) ∧ outcome ≠ .unfinished ∧
      (last.executed ≤ instructions.length ∨ last = machine) := by
  obtain ⟨last, hexecute, hcount, -⟩ | ⟨fault, last, hexecute, hcount⟩ := h.ends
  · exact ⟨_, last, hexecute, by simp, .inl hcount⟩
  · exact ⟨_, last, hexecute, by simp, hcount.imp_left Nat.le_of_lt⟩

/-- What becomes of a grid is settled after so many turns, and no more instructions were executed,
    unless there was nothing to execute. -/
def SettlesWithin (count : Nat) (shading : Nat → Machine σ → Outcome × Machine σ × Grid)
    (machine : Machine σ) : Prop :=
  ∃ outcome last after, (∀ turns > count, shading turns machine = (outcome, last, after)) ∧
    outcome ≠ .unfinished ∧ (last.executed ≤ count ∨ last.executed = machine.executed)

theorem IsShading.settlesWithin {source kept : Grid}
    {finish : Outcome × Machine σ → Outcome × Machine σ × Grid}
    {shading : Nat → Machine σ → Outcome × Machine σ × Grid}
    (hway : IsShading renderer shader source kept finish shading)
    (h : shader.JumpsForward instructions) (hlimit : machine.config.limit = none) :
    SettlesWithin instructions.length shading machine := by
  obtain ⟨error, hstart⟩ | hstart := hway.start
  · exact ⟨_, _, _, fun turns _ => hstart turns machine, by simp, .inr rfl⟩
  cases hload : load shader source machine with
  | error fault =>
    exact ⟨_, _, _, fun turns _ => by rw [hstart, hload], by simp, .inr rfl⟩
  | ok loaded =>
    obtain ⟨-, _, -, hloaded⟩ := load_eq_ok.mp hload
    have hconfig : loaded.config = machine.config := hloaded ▸ rfl
    have hexecuted : loaded.executed = machine.executed := hloaded ▸ rfl
    obtain ⟨outcome, last, hexecute, hended, hcount⟩ :=
      (endsWithin renderer h (hconfig ▸ hlimit)).exists_last
    have hunfinished := hway.unfinished (outcome, last)
    have hsame := hway.executed (outcome, last)
    rcases hfinish : finish (outcome, last) with ⟨ended, ran, after⟩
    rw [hfinish] at hunfinished hsame
    refine ⟨ended, ran, after, fun turns hturns => ?_, fun h => hended (hunfinished h).1, ?_⟩
    · rw [hstart, hload, ← hfinish, ← hexecute turns hturns]
    · obtain hcount | rfl := hcount
      · exact .inl (hsame.le.trans hcount)
      · exact .inr (hsame.trans hexecuted)

/-- **Termination.**  A machine without a limit executes code that only jumps forward in the order of
    its instructions, none of them twice, and comes to an end; so does shading any grid with it. -/
theorem forward_code_ends (h : shader.JumpsForward instructions) (renderer : Renderer σ)
    (machine : Machine σ) (hlimit : machine.config.limit = none) :
    machine.EndsWithin renderer shader instructions ∧
      (∀ input output, SettlesWithin instructions.length
        (fun turns machine => shade renderer shader turns input output machine) machine) ∧
      ∀ grid, SettlesWithin instructions.length
        (fun turns machine => shadeInPlace renderer shader turns grid machine) machine :=
  ⟨endsWithin renderer h hlimit,
    fun input output => (isShading_shade renderer shader input output).settlesWithin h hlimit,
    fun grid => (isShading_shadeInPlace renderer shader grid).settlesWithin h hlimit⟩

/-- A shader that doubles its only symbol where it is not zero.  It jumps over a halt, and past the end
    of the code where there is nothing to double. -/
def doubleUnlessEmpty : Shader where
  kind := .surface
  name := "main"
  code := #[8, 3, 1, 4, 0x40000000, 6, 1000, 0x212118, 0x40000000, 0x40000000, 3]
  constants := #[]
  symbols := ⟨#[⟨"x", .global, .float, .varying, none⟩]⟩
  temporaries := 0

def doubleUnlessEmptyInstructions : List (Nat × Instruction) :=
  [(0, ⟨.jump .always, .none⟩), (2, ⟨.halt, .none⟩), (3, ⟨.generateMask, .none⟩),
    (5, ⟨.jump .empty, .none⟩), (7, ⟨.assign .add, .pair ⟨.varying, .one⟩ ⟨.varying, .one⟩⟩),
    (10, ⟨.clearMask, .none⟩)]

theorem jumpsForward_doubleUnlessEmpty :
    doubleUnlessEmpty.JumpsForward doubleUnlessEmptyInstructions where
  walk_eq := by decide +kernel
  target := by
    intro ip instruction condition target hmem hopcode htarget
    simp only [doubleUnlessEmptyInstructions, List.mem_cons, Prod.mk.injEq, List.not_mem_nil,
      or_false] at hmem
    obtain ⟨rfl, rfl⟩ | ⟨rfl, rfl⟩ | ⟨rfl, rfl⟩ | ⟨rfl, rfl⟩ | ⟨rfl, rfl⟩ | ⟨rfl, rfl⟩ := hmem
    · obtain rfl := Option.some.inj htarget
      exact ⟨by decide, .inl (by decide)⟩
    · cases hopcode
    · cases hopcode
    · obtain rfl := Option.some.inj htarget
      exact ⟨by decide, .inr (by decide)⟩
    · cases hopcode
    · cases hopcode

/-- On a grid with something to double all but the halt is executed, and otherwise less. -/
theorem forward_code_ends_doubleUnlessEmpty :
    let visited grid := itinerary (.ofScene .still) doubleUnlessEmpty 7 <$>
      load doubleUnlessEmpty grid idle
    doubleUnlessEmpty.JumpsForward doubleUnlessEmptyInstructions ∧
      visited twoPoints = .ok [0, 3, 5, 7, 10] ∧ visited (.new 2 1) = .ok [0, 3, 5] ∧
      (∀ grid loaded, load doubleUnlessEmpty grid idle = .ok loaded →
        loaded.EndsWithin (.ofScene .still) doubleUnlessEmpty doubleUnlessEmptyInstructions) ∧
      SettlesWithin 6 (fun turns machine =>
        shadeInPlace (.ofScene .still) doubleUnlessEmpty turns twoPoints machine) idle := by
  refine ⟨jumpsForward_doubleUnlessEmpty, by decide +kernel, by decide +kernel, ?_, ?_⟩
  · intro grid loaded hload
    obtain ⟨-, _, -, rfl⟩ := load_eq_ok.mp hload
    exact (forward_code_ends jumpsForward_doubleUnlessEmpty _ _ rfl).1
  · exact (forward_code_ends jumpsForward_doubleUnlessEmpty _ idle rfl).2.2 twoPoints

end Machine

end Shading
