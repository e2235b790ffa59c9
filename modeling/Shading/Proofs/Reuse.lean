import Shading.Proofs.InPlace
import Shading.Proofs.Safety

namespace Shading

/-!
# A machine can be used again

What earlier runs leave in a machine cannot be told from its later runs.  All that is left of them is the
number of temporaries, and a run looks at no more of these than its shader addresses: forgetting the
others commutes with every command.

* `Registers.trim`, `Machine.trim` — only so many temporaries;
* `Shader.Visits`, `Shader.KeepsToTemporaries` — the offsets that a run can come to, and the shaders in
  question;
* `Machine.perform_trim`, `Machine.step_trim`, `Machine.run_trim` — commands, instructions and runs;
* `Machine.Reached` — machines with a history, and `Machine.Reached.leaves_no_trace`.
-/

variable {n : Nat}

/-- The address is no temporary from place `n` on. -/
def Address.IsBelow (n : Nat) : Address → Prop
  | .temporary i => i < n
  | _ => True

/-! ### Registers -/

theorem store_take {α : Type} {xs : Array α} {i : Nat} {x : α} (hi : i < n) :
    store (xs.take n) i x = (·.take n) <$> store xs i x := by
  unfold store
  by_cases hsize : i < xs.size
  · have htake : i < (xs.take n).size := by
      simp only [Array.take_eq_extract, Array.size_extract]
      omega
    rw [dif_pos hsize, dif_pos htake]
    refine congrArg Except.ok (Array.ext' ?_)
    simp [List.take_set]
  · have htake : ¬ i < (xs.take n).size := by
      simp only [Array.take_eq_extract, Array.size_extract]
      omega
    rw [dif_neg hsize, dif_neg htake]
    rfl

namespace Registers

variable {registers : Registers} {constants : Array Value} {address : Address} {value : Value}

/-- The first so many temporaries only. -/
def trim (n : Nat) (registers : Registers) : Registers :=
  { registers with temporaries := registers.temporaries.take n }

theorem getElem?_trim {i : Nat} (hi : i < n) :
    (registers.trim n).temporaries[i]? = registers.temporaries[i]? := by
  simp only [trim, Array.take_eq_extract, Array.getElem?_extract, Nat.sub_zero, Nat.zero_add]
  split
  · rfl
  · rw [Array.getElem?_eq_none (by omega)]

theorem read_trim (h : address.IsBelow n) :
    (registers.trim n).read constants address = registers.read constants address := by
  cases address with
  | constant i => rfl
  | symbol i => rfl
  | temporary i => exact fetch_congr (getElem?_trim h)

theorem target_trim (h : address.IsBelow n) :
    (registers.trim n).target address = registers.target address := by
  cases address with
  | constant i => rfl
  | symbol i => rfl
  | temporary i => exact fetch_congr (getElem?_trim h)

theorem claim_trim (h : address.IsBelow n) :
    (registers.trim n).claim address = registers.claim address := by
  unfold claim
  split
  · rfl
  · exact target_trim h

theorem put_trim (h : address.IsBelow n) :
    (registers.trim n).put address value = trim n <$> registers.put address value := by
  cases address with
  | constant i => rfl
  | symbol i =>
    show (do return { registers.trim n with symbols := ← store registers.symbols i value }) = _
    simp only [put, map_bind, map_pure]
    rfl
  | temporary i =>
    have hstore : store (registers.temporaries.take n) i value
        = (·.take n) <$> store registers.temporaries i value := store_take h
    simp only [put, trim, hstore, bind_map_left, map_bind, map_pure]

theorem checkAliases_trim {operands : List Address} (h : ∀ operand ∈ operands, operand.IsBelow n) :
    (registers.trim n).checkAliases constants address operands
      = registers.checkAliases constants address operands := by
  refine forM_congr fun operand hoperand => ?_
  rw [read_trim (h operand hoperand)]

theorem commit_trim {masks : MaskStack} {points : Nat} (h : address.IsBelow n) :
    (registers.trim n).commit masks points address value
      = trim n <$> registers.commit masks points address value := by
  -- along the branches of a commit, registers are only asked for their target and put to
  unfold commit
  split
  next slot =>
    rw [target_trim h, map_bind]
    refine bind_congr fun target => ?_
    split
    · exact put_trim h
    · split
      · split
        · exact put_trim h
        · rfl
      · dsimp only
        split
        · rfl
        · split
          · simp only [map_bind]
            refine bind_congr fun full => bind_congr fun mask => bind_congr fun floats => ?_
            exact put_trim h
          · simp only [map_bind, pure_bind]
            refine bind_congr fun mask => bind_congr fun floats => ?_
            exact put_trim h
  · exact put_trim h

theorem clearTemporaries_trim
    (hroom : 48 * registers.temporaries.size < 0x8000000000000000) :
    (registers.trim n).clearTemporaries 0 = trim n <$> registers.clearTemporaries 0 := by
  have hall : registers.clearTemporaries 0 = .ok { registers with
      temporaries := Array.replicate (max registers.temporaries.size 0) Value.empty } :=
    clearTemporaries_eq_ok.mpr ⟨by simpa using hroom, rfl⟩
  have hsize : (registers.trim n).temporaries.size = min n registers.temporaries.size := by
    simp [trim]
  rw [hall]
  refine clearTemporaries_eq_ok.mpr ⟨by omega, ?_⟩
  rw [hsize]
  simp [trim]

end Registers

/-! ### Commands -/

namespace Machine

variable {σ : Type} {renderer : Renderer σ} {shader : Shader} {constants : Array Value}
  {machine next : Machine σ} {instruction : Instruction} {command : Command} {word : Word}

/-- The machine with the first so many temporaries only. -/
def trim (n : Nat) (machine : Machine σ) : Machine σ :=
  { machine with registers := machine.registers.trim n }

@[simp] theorem trim_registers : (machine.trim n).registers = machine.registers.trim n := rfl

@[simp] theorem trim_masks : (machine.trim n).masks = machine.masks := rfl

@[simp] theorem trim_ip : (machine.trim n).ip = machine.ip := rfl

@[simp] theorem trim_points : (machine.trim n).points = machine.points := rfl

theorem compute_trim {op : PointOp} {type : Option ElementType} {result first last : Address}
    (h : ∀ address ∈ [result, first, last], address.IsBelow n) :
    (machine.trim n).compute constants instruction op type result first last
      = trim n <$> machine.compute constants instruction op type result first last := by
  obtain ⟨hresult, hoperands⟩ := List.forall_mem_cons.mp h
  have hfirst := hoperands first (by simp)
  have hlast := hoperands last (by simp)
  unfold compute
  simp only [trim_registers, trim_masks, trim_points, Registers.checkAliases_trim hoperands,
    Registers.claim_trim hresult, Registers.read_trim hfirst, Registers.read_trim hlast,
    Registers.commit_trim hresult, bind_map_left, map_bind, map_pure]
  rfl

theorem assign_trim {update : Update} {target source : Address}
    (h : ∀ address ∈ [target, source], address.IsBelow n) :
    (machine.trim n).assign constants instruction update target source
      = trim n <$> machine.assign constants instruction update target source := by
  obtain ⟨htarget, hoperands⟩ := List.forall_mem_cons.mp h
  have hsource := hoperands source (by simp)
  rw [assign_eq, assign_eq]
  simp only [trim_registers, trim_masks, trim_points, Registers.checkAliases_trim hoperands,
    Registers.target_trim htarget, Registers.read_trim hsource, Registers.put_trim htarget,
    bind_map_left, map_bind, map_pure]
  rfl

theorem argument_trim {function : Builtin} {result address : Address} {addresses : List Address}
    {k : Nat} (h : address.IsBelow n) :
    (machine.trim n).argument constants function result addresses k address
      = machine.argument constants function result addresses k address := by
  unfold argument
  rw [trim_registers, Registers.read_trim h]

theorem restore_trim {function : Builtin} {result : Address} {addresses : List Address}
    {values : Array Value} (h : ∀ address ∈ addresses, address.IsBelow n) :
    (machine.trim n).restore function result addresses values
      = Registers.trim n <$> machine.restore function result addresses values := by
  refine foldlM_map (Registers.trim n) fun registers entry hentry => ?_
  have hbelow : entry.1.IsBelow n := h _ (List.fst_mem_of_mem_zipIdx hentry)
  dsimp only
  split
  · rfl
  · rw [map_bind]
    exact bind_congr fun value => Registers.put_trim hbelow

theorem arguments_trim {function : Builtin} {result : Address} {addresses : List Address}
    (h : ∀ address ∈ addresses, address.IsBelow n) :
    (addresses.zipIdx.mapM fun (address, k) =>
        (machine.trim n).argument constants function result addresses k address)
      = addresses.zipIdx.mapM fun (address, k) =>
        machine.argument constants function result addresses k address :=
  mapM_congr fun _ hentry => argument_trim (h _ (List.fst_mem_of_mem_zipIdx hentry))

theorem call_trim {scene : Scene} {function : Builtin} {result : Address} {addresses : List Address}
    (h : ∀ address ∈ result :: addresses, address.IsBelow n) :
    (machine.trim n).call constants scene function result addresses
      = trim n <$> machine.call constants scene function result addresses := by
  obtain ⟨hresult, haddresses⟩ := List.forall_mem_cons.mp h
  have hreplied : ∀ reply, (machine.trim n).replied function result addresses reply
      = Registers.trim n <$> machine.replied function result addresses reply := by
    intro reply
    cases reply with
    | result value => exact Registers.commit_trim hresult
    | arguments values => exact restore_trim haddresses
  rw [call_eq, call_eq]
  simp only [arguments_trim haddresses, hreplied, trim_registers, trim_masks, Registers.claim_trim hresult,
    bind_map_left, map_bind, map_pure]
  rfl

theorem evaluate_trim {symbols : SymbolTable} {name : Address} (h : name.IsBelow n) :
    (machine.trim n).evaluate constants renderer symbols name
      = trim n <$> machine.evaluate constants renderer symbols name := by
  unfold evaluate
  simp only [trim_registers, Registers.read_trim h, map_bind, map_pure]
  rfl

/-- **Commands.**  Forgetting temporaries that a command does not mention commutes with it. -/
theorem perform_trim (hroom : 48 * machine.registers.temporaries.size < 0x8000000000000000)
    (h : ∀ address ∈ command.mentions, address.IsBelow n) :
    (machine.trim n).perform renderer shader instruction command
      = Prod.map id (trim n) <$> machine.perform renderer shader instruction command := by
  cases command with
  | nothing | halt => rfl
  | discard =>
    simp only [perform, trim_registers, Registers.clearTemporaries_trim hroom, bind_map_left, map_bind,
      map_pure]
    rfl
  | clearMask | invertMask =>
    simp only [perform, trim_masks, map_bind, map_pure]
    rfl
  | generateMask predicate =>
    have hpredicate := h predicate List.mem_cons_self
    simp only [perform, trim_registers, trim_masks, Registers.read_trim hpredicate, map_bind, map_pure]
    rfl
  | jump condition target =>
    have htaken : (machine.trim n).taken condition = machine.taken condition := by
      cases condition <;> rfl
    simp only [perform, htaken, map_bind]
    refine bind_congr fun taken => ?_
    cases taken with
    | false => rfl
    | true => cases target <;> rfl
  | compute op type result first last =>
    simp only [perform, compute_trim h, bind_map_left, map_bind, map_pure]
    rfl
  | assign update target source =>
    simp only [perform, assign_trim h, bind_map_left, map_bind, map_pure]
    rfl
  | call function result arguments =>
    simp only [perform, call_trim h, bind_map_left, map_bind, map_pure]
    rfl
  | evaluate name =>
    simp only [perform, evaluate_trim (h name List.mem_cons_self), bind_map_left, map_bind, map_pure]
    rfl

theorem moved_trim {code : Array Word} {ip : Nat} {opcode : Opcode} {flow : Flow} :
    (machine.trim n).moved code ip opcode flow = trim n <$> machine.moved code ip opcode flow := by
  cases flow with
  | next =>
    simp only [moved, map_bind, map_pure]
    rfl
  | jump target => rfl
  | halt => rfl

/-- **Instructions.**  Forgetting temporaries that an instruction does not mention commutes with it. -/
theorem step_trim (hroom : 48 * machine.registers.temporaries.size < 0x8000000000000000)
    (hword : shader.code[machine.ip]? = some word)
    (h : ∀ command, shader.CommandAt machine.ip command →
      ∀ address ∈ command.mentions, address.IsBelow n) :
    (machine.trim n).step renderer shader word
      = Prod.map id (trim n) <$> machine.step renderer shader word := by
  have hcounted : { machine.trim n with executed := (machine.trim n).executed + 1 }
      = trim n { machine with executed := machine.executed + 1 } := rfl
  rw [step_eq, step_eq, hcounted, trim_ip]
  cases hinstruction : Instruction.decode word with
  | error error => rfl
  | ok instruction =>
    simp only [Except.mapError, ok_bind]
    cases hcommand : Command.decode shader.code machine.ip instruction with
    | error fault => rfl
    | ok command =>
      have hbelow := h command ⟨word, instruction, hword, hinstruction, hcommand⟩
      have hperform := @perform_trim n σ renderer shader
        { machine with executed := machine.executed + 1 } instruction command hroom hbelow
      rw [ok_bind, ok_bind, hperform, bind_map_left, map_bind]
      refine bind_congr fun result => ?_
      simp only [Prod.map_fst, Prod.map_snd, id, moved_trim, bind_map_left, map_bind, map_pure]
      rfl

end Machine

/-! ### Runs -/

namespace Shader

variable {shader : Shader}

/-- The offsets that a run can come to: the first one, those behind other instructions, and those that
    jumps lead to. -/
inductive Visits (shader : Shader) : Nat → Prop
  | first : Visits shader 0
  | next {ip size : Nat} {word : Word} {instruction : Instruction} (before : Visits shader ip)
      (hword : shader.code[ip]? = some word) (hinstruction : Instruction.decode word = .ok instruction)
      (hsize : instructionSize shader.code ip instruction.opcode = .ok size) :
      Visits shader (ip + size)
  | jump {ip target : Nat} {condition : JumpCondition} (before : Visits shader ip)
      (hjump : shader.CommandAt ip (.jump condition (some target))) : Visits shader target

/-- The code addresses no temporaries but those that the shader says it does. -/
def KeepsToTemporaries (shader : Shader) : Prop :=
  ∀ ip command, shader.Visits ip → shader.CommandAt ip command →
    ∀ address ∈ command.mentions, address.IsBelow shader.temporaries

namespace ConsistsOf

variable {instructions : List (Nat × Instruction)} (h : shader.ConsistsOf instructions) {ip : Nat}

include h

/-- A run can only come to where an instruction begins, or to the end. -/
theorem mem_of_visits (hvisits : shader.Visits ip) :
    ip ∈ instructions.map Prod.fst ++ [shader.code.size] := by
  induction hvisits with
  | first => exact h.tiles.start_mem
  | next _ hword hinstruction hsize ih =>
    obtain ⟨instruction', hmem, hinstruction'⟩ := h.exists_mem ih hword
    obtain rfl := Except.ok.inj (hinstruction.symm.trans hinstruction')
    obtain ⟨-, size', hsize', hnext⟩ := h.tiles.of_mem hmem
    exact Except.ok.inj (hsize.symm.trans hsize') ▸ hnext
  | jump _ hjump ih =>
    obtain ⟨offset, hoffset, htarget⟩ := (h.isIn ih hjump).jump _ _ rfl
    exact Option.some.inj htarget ▸ hoffset

theorem keepsToTemporaries : shader.KeepsToTemporaries := by
  intro ip command hvisits hcommand address haddress
  have hhas := (h.isIn (h.mem_of_visits hvisits) hcommand).has address haddress
  cases address with
  | temporary i => exact hhas
  | constant i => trivial
  | symbol i => trivial

end ConsistsOf

end Shader

namespace Machine

variable {σ : Type} {renderer : Renderer σ} {shader : Shader} {machine next : Machine σ}
  {word : Word} {flow : Flow} {turns : Nat}

theorem visits_of_step (hvisits : shader.Visits machine.ip)
    (hword : shader.code[machine.ip]? = some word)
    (h : machine.step renderer shader word = .ok (flow, next)) : shader.Visits next.ip := by
  obtain ⟨instruction, command, last, hinstruction, hcommand, hperform, hmoved⟩ := step_eq_ok.mp h
  have hperformed := perform_eq_ok.mp hperform
  obtain ⟨_, _, _, hlast⟩ := hperformed.frame
  -- the offset depends on the flow alone: no command moves the machine itself
  cases flow with
  | next =>
    obtain ⟨size, hsize, hnext⟩ := bind_eq_ok.mp hmoved
    obtain rfl := pure_eq_ok.mp hnext
    exact hvisits.next hword hinstruction hsize
  | jump target =>
    obtain rfl := Except.ok.inj hmoved
    cases hperformed with
    | jump condition _ htaken =>
      exact hvisits.jump ⟨word, instruction, hword, hinstruction, hcommand⟩
  | halt =>
    obtain rfl := Except.ok.inj hmoved
    rw [hlast]
    exact hvisits

theorem size_temporaries_of_step (h : machine.step renderer shader word = .ok (flow, next)) :
    next.registers.temporaries.size = machine.registers.temporaries.size ∧
      next.config = machine.config := by
  obtain ⟨_, _, last, -, -, hperform, hmoved⟩ := step_eq_ok.mp h
  have hperformed := perform_eq_ok.mp hperform
  have hsize := hperformed.size_temporaries
  obtain ⟨_, _, _, rfl⟩ := hperformed.frame
  obtain ⟨_, rfl⟩ := eq_of_moved hmoved
  exact ⟨hsize, rfl⟩

/-- **Runs.**  Forgetting temporaries that a shader does not address commutes with its runs. -/
theorem run_trim (hkeeps : shader.KeepsToTemporaries) (hvisits : shader.Visits machine.ip)
    (hroom : 48 * machine.registers.temporaries.size < 0x8000000000000000) :
    run renderer shader turns (machine.trim shader.temporaries)
      = Prod.map id (trim shader.temporaries) (run renderer shader turns machine) := by
  induction turns generalizing machine with
  | zero => rfl
  | succ turns ih =>
    -- whether a run is over is told by the offset and the count of instructions, which stay
    have hlimit : (machine.trim shader.temporaries).reachedLimit? = machine.reachedLimit? := rfl
    rw [run, run, turn, turn, trim_ip, hlimit]
    cases hword : shader.code[machine.ip]? with
    | none => rfl
    | some word =>
      cases machine.reachedLimit? with
      | some limit => rfl
      | none =>
        dsimp only
        rw [step_trim hroom hword fun command hcommand => hkeeps _ command hvisits hcommand]
        cases hstep : machine.step renderer shader word with
        | error fault => rfl
        | ok result =>
          obtain ⟨flow, next⟩ := result
          have hnext := ih (visits_of_step hvisits hword hstep)
            ((size_temporaries_of_step hstep).1 ▸ hroom)
          cases flow with
          | next => exact hnext
          | jump target => exact hnext
          | halt => rfl

end Machine

/-! ### Two machines -/

namespace Machine

variable {σ : Type} {renderer : Renderer σ} {shader : Shader} {machine machine' : Machine σ}
  {grid : Grid} {turns : Nat}

/-- Machines that differ only in what getting ready sets anew: the offset, the count of instructions,
    the masks and the temporaries. -/
structure Twin (machine machine' : Machine σ) : Prop where
  config_eq : machine.config = machine'.config
  width_eq : machine.width = machine'.width
  height_eq : machine.height = machine'.height
  symbols_eq : machine.registers.symbols = machine'.registers.symbols
  bound_eq : machine.bound = machine'.bound
  world_eq : machine.world = machine'.world

theorem Twin.of_trim (h : machine.trim n = machine'.trim n) : machine.Twin machine' where
  config_eq := congrArg (fun machine => machine.config) h
  width_eq := congrArg (fun machine => machine.width) h
  height_eq := congrArg (fun machine => machine.height) h
  symbols_eq := congrArg (fun machine => machine.registers.symbols) h
  bound_eq := congrArg (fun machine => machine.bound) h
  world_eq := congrArg (fun machine => machine.world) h

/-- A machine with room for its temporaries, and for those of a new machine. -/
structure Roomy (machine : Machine σ) : Prop where
  temporaries : 48 * machine.registers.temporaries.size < 0x8000000000000000
  config : 48 * machine.config.temporaries < 0x8000000000000000

theorem Roomy.load {loaded : Machine σ} (hroomy : machine.Roomy)
    (hload : load shader grid machine = .ok loaded) : loaded.Roomy := by
  obtain ⟨-, _, -, rfl⟩ := load_eq_ok.mp hload
  exact ⟨hroomy.temporaries, hroomy.config⟩

/-- A machine that is ready does not depend on the temporaries it had, except for their number. -/
theorem trim_ready (hroomy : machine.Roomy) :
    trim shader.temporaries <$> machine.ready shader =
      if machine.points < 0x8000000000000000 ∧ 48 * shader.temporaries < 0x8000000000000000 then
        .ok { machine with
          ip := 0
          executed := 0
          masks := MaskStack.base machine.points
          registers :=
            ⟨machine.registers.symbols, Array.replicate shader.temporaries Value.empty⟩ }
      else .error .tooLarge := by
  have hroom := hroomy.temporaries
  have hfaults : FaultsOnly (fun fault => fault = .tooLarge) (machine.ready shader) := by
    have hrequire : ∀ bytes count, FaultsOnly (fun fault => fault = .tooLarge)
        (requireRoom bytes count) := by
      intro bytes count
      unfold requireRoom
      split <;> simp
    simp [ready, reset, MaskStack.reset, MaskStack.new, Registers.clearTemporaries,
      Registers.emptyTemporaries, hrequire]
  split
  next henough =>
    obtain ⟨hpoints, hcount⟩ := henough
    have hready : machine.ready shader = .ok _ := ready_eq_ok.mpr ⟨hpoints, _, _,
      Registers.clearTemporaries_eq_ok.mpr ⟨by rwa [Nat.max_zero], rfl⟩,
      Registers.clearTemporaries_eq_ok.mpr ⟨by simp only [Array.size_replicate]; omega, rfl⟩, rfl⟩
    rw [hready]
    refine congrArg Except.ok ?_
    -- temporaries never become fewer, so those of the shader are among the cleared ones
    have hmin : min shader.temporaries (max machine.registers.temporaries.size shader.temporaries)
        = shader.temporaries := by omega
    simp only [trim, Registers.trim, Array.size_replicate, Nat.max_zero, Array.take_eq_extract,
      Array.extract_replicate, Nat.sub_zero, hmin]
  next hfew =>
    cases hready : machine.ready shader with
    | error fault => rw [hfaults fault hready]; rfl
    | ok first =>
      obtain ⟨hpoints, _, _, hcleared, hregisters, -⟩ := ready_eq_ok.mp hready
      obtain ⟨-, rfl⟩ := Registers.clearTemporaries_eq_ok.mp hcleared
      obtain ⟨hroom', -⟩ := Registers.clearTemporaries_eq_ok.mp hregisters
      exact absurd ⟨hpoints, by omega⟩ hfew

/-- A machine that is ready is at the first instruction and has room for its temporaries. -/
theorem ready_roomy {first : Machine σ} (hroomy : machine.Roomy)
    (hready : machine.ready shader = .ok first) : first.ip = 0 ∧ first.Roomy := by
  obtain ⟨-, _, _, hcleared, hregisters, rfl⟩ := ready_eq_ok.mp hready
  obtain ⟨-, rfl⟩ := Registers.clearTemporaries_eq_ok.mp hcleared
  obtain ⟨hroom, rfl⟩ := Registers.clearTemporaries_eq_ok.mp hregisters
  exact ⟨rfl, by simpa using hroom, hroomy.config⟩

theorem Twin.trim_ready (h : machine.Twin machine') (hroomy : machine.Roomy)
    (hroomy' : machine'.Roomy) :
    trim shader.temporaries <$> machine.ready shader
      = trim shader.temporaries <$> machine'.ready shader := by
  obtain ⟨hconfig, hwidth, hheight, hsymbols, hbound, hworld⟩ := h
  have hpoints : machine.points = machine'.points := by rw [points, points, hwidth, hheight]
  rw [Machine.trim_ready hroomy, Machine.trim_ready hroomy', hpoints, hconfig, hwidth, hheight,
    hsymbols, hbound, hworld]

/-- Machines that do the same have the same left in the end. -/
structure RunAlike (ran ran' : Outcome × Machine σ) : Prop where
  outcome_eq : ran.1 = ran'.1
  twin : ran.2.Twin ran'.2
  executed_eq : (∀ fault, ran.1 ≠ .failed (.fault fault)) → ran.2.executed = ran'.2.executed

theorem Twin.execute (h : machine.Twin machine') (hroomy : machine.Roomy) (hroomy' : machine'.Roomy)
    (hkeeps : shader.KeepsToTemporaries) :
    RunAlike (execute renderer shader turns machine) (execute renderer shader turns machine') := by
  rw [Machine.execute, Machine.execute, ← h.symbols_eq]
  split
  next =>
    have hsame := @Twin.trim_ready _ shader _ _ h hroomy hroomy'
    cases hready : machine.ready shader with
    | error fault =>
      cases hready' : machine'.ready shader with
      | error fault' =>
        rw [hready, hready'] at hsame
        obtain rfl : fault = fault' := Except.error.inj hsame
        exact ⟨rfl, h, fun hfault => absurd rfl (hfault _)⟩
      | ok first' =>
        rw [hready, hready'] at hsame
        cases hsame
    | ok first =>
      cases hready' : machine'.ready shader with
      | error fault' =>
        rw [hready, hready'] at hsame
        cases hsame
      | ok first' =>
        rw [hready, hready'] at hsame
        have hfirst : trim shader.temporaries first = trim shader.temporaries first' :=
          Except.ok.inj hsame
        obtain ⟨hip, hroom⟩ := ready_roomy hroomy hready
        obtain ⟨hip', hroom'⟩ := ready_roomy hroomy' hready'
        -- both runs, without the temporaries that the shader does not address, are one
        have hrun : Prod.map id (trim shader.temporaries) (run renderer shader turns first)
            = Prod.map id (trim shader.temporaries) (run renderer shader turns first') := by
          rw [← run_trim hkeeps (hip ▸ .first) hroom.temporaries,
            ← run_trim hkeeps (hip' ▸ .first) hroom'.temporaries, hfirst]
        obtain ⟨houtcome, hmachine⟩ := Prod.ext_iff.mp hrun
        exact ⟨houtcome, .of_trim hmachine,
          fun _ => congrArg (fun machine => machine.executed) hmachine⟩
  next => exact ⟨rfl, h, fun hfault => absurd rfl (hfault _)⟩

/-- Loading a grid does not depend on what a machine holds. -/
theorem load_twin (hconfig : machine.config = machine'.config)
    (hworld : machine.world = machine'.world) :
    (∃ fault, load shader grid machine = .error fault ∧ load shader grid machine' = .error fault) ∨
      ∃ loaded loaded', load shader grid machine = .ok loaded ∧
        load shader grid machine' = .ok loaded' ∧ loaded.Twin loaded' := by
  unfold load
  cases grid.points with
  | error fault => exact .inl ⟨fault, rfl, rfl⟩
  | ok points =>
    simp only [ok_bind]
    cases shader.symbols.symbols.mapM fun symbol =>
        symbol.loadedValue points (Shader.boundValue? grid symbol) with
    | error fault => exact .inl ⟨fault, rfl, rfl⟩
    | ok symbols => exact .inr ⟨_, _, rfl, rfl, hconfig, rfl, rfl, rfl, rfl, hworld⟩

/-- Storing symbols empties some of them, and changes nothing else about a machine. -/
theorem storeSymbols_frame (symbols : List Symbol) (slot : Nat) (grid : Grid) (machine : Machine σ) :
    ∃ values, (storeSymbols symbols slot grid machine).2.1
      = { machine with registers := { machine.registers with symbols := values } } := by
  induction symbols generalizing slot grid machine with
  | nil => exact ⟨_, rfl⟩
  | cons symbol symbols ih =>
    rw [storeSymbols]
    split
    next =>
      split
      next => exact ⟨_, rfl⟩
      next value _ =>
        dsimp only
        split
        next stored _ => exact ih _ _ _
        next => exact ⟨_, rfl⟩
    next => exact ih _ _ _

/-- What is stored does not depend on anything but the symbols. -/
theorem storeSymbols_twin (symbols : List Symbol) (slot : Nat) (grid : Grid)
    (h : machine.Twin machine') :
    (storeSymbols symbols slot grid machine).1 = (storeSymbols symbols slot grid machine').1 ∧
      (storeSymbols symbols slot grid machine).2.2 = (storeSymbols symbols slot grid machine').2.2 := by
  induction symbols generalizing slot grid machine machine' with
  | nil => exact ⟨rfl, rfl⟩
  | cons symbol symbols ih =>
    rw [storeSymbols, storeSymbols, ← h.symbols_eq, ← h.bound_eq]
    split
    next =>
      split
      next => exact ⟨rfl, rfl⟩
      next value _ =>
        dsimp only
        split
        next stored _ =>
          exact ih _ _ ⟨h.config_eq, h.width_eq, h.height_eq, rfl, rfl, h.world_eq⟩
        next => exact ⟨rfl, rfl⟩
    next => exact ih _ _ h

/-! ### Results -/

/-- What cannot be told apart in the results of shading: the outcome, the grid, the state of the renderer
    and, if the run ended or reached its limit, the count of instructions. -/
structure SameResult (shaded shaded' : Outcome × Machine σ × Grid) : Prop where
  outcome_eq : shaded.1 = shaded'.1
  grid_eq : shaded.2.2 = shaded'.2.2
  world_eq : shaded.2.1.world = shaded'.2.1.world
  executed_eq : (shaded.1 = .finished ∨ ∃ limit, shaded.1 = .failed (.error (.instructionLimit limit))) →
    shaded.2.1.executed = shaded'.2.1.executed

/-- Results of a failure before the run, which is no limit of instructions. -/
theorem SameResult.of_failure {failure : Failure MachineError} (hworld : machine.world = machine'.world)
    (hlimit : ∀ limit, failure ≠ .error (.instructionLimit limit)) :
    SameResult (.failed failure, machine, grid) (.failed failure, machine', grid) := by
  refine ⟨rfl, rfl, hworld, ?_⟩
  rintro (h | ⟨limit, h⟩)
  · cases h
  · exact absurd (Outcome.failed.inj h) (hlimit limit)

/-- Results of runs that are not stored. -/
theorem RunAlike.sameResult {ran ran' : Outcome × Machine σ} (h : RunAlike ran ran') (grid : Grid) :
    SameResult (ran.1, ran.2, grid) (ran'.1, ran'.2, grid) := by
  refine ⟨h.outcome_eq, rfl, h.twin.world_eq, fun hended => h.executed_eq fun fault hfault => ?_⟩
  obtain hended | ⟨limit, hended⟩ := hended
  · cases hfault.symm.trans hended
  · cases hfault.symm.trans hended

/-- Results of runs that are stored. -/
theorem RunAlike.stored {ran ran' : Outcome × Machine σ} (h : RunAlike ran ran')
    (hfault : ∀ fault, ran.1 ≠ .failed (.fault fault)) (grid : Grid)
    (settled : Progress → Outcome) :
    SameResult (settled (store shader grid ran.2).1, (store shader grid ran.2).2)
      (settled (store shader grid ran'.2).1, (store shader grid ran'.2).2) := by
  obtain ⟨hprogress, hgrid⟩ := storeSymbols_twin shader.symbols.symbols.toList 0 grid h.twin
  obtain ⟨_, hframe⟩ := storeSymbols_frame shader.symbols.symbols.toList 0 grid ran.2
  obtain ⟨_, hframe'⟩ := storeSymbols_frame shader.symbols.symbols.toList 0 grid ran'.2
  refine ⟨congrArg settled hprogress, hgrid, ?_, fun _ => ?_⟩
  · simp only [store, hframe, hframe']
    exact h.twin.world_eq
  · simp only [store, hframe, hframe']
    exact h.executed_eq hfault

theorem RunAlike.deliver {ran ran' : Outcome × Machine σ} (h : RunAlike ran ran') (grid : Grid) :
    SameResult (deliver shader grid ran) (deliver shader grid ran') := by
  obtain ⟨outcome, machine⟩ := ran
  obtain ⟨outcome', machine'⟩ := ran'
  obtain rfl : outcome = outcome' := h.outcome_eq
  cases outcome with
  | finished => exact h.stored (by simp) grid Outcome.ofProgress
  | failed failure => exact h.sameResult grid
  | unfinished => exact h.sameResult grid

theorem RunAlike.settle {ran ran' : Outcome × Machine σ} (h : RunAlike ran ran') (grid : Grid) :
    SameResult (settle shader grid ran) (settle shader grid ran') := by
  obtain ⟨outcome, machine⟩ := ran
  obtain ⟨outcome', machine'⟩ := ran'
  obtain rfl : outcome = outcome' := h.outcome_eq
  obtain ⟨hfault, hsettle⟩ | hsettle := settle_cases shader outcome
  · rw [hsettle, hsettle]
    exact h.stored hfault grid outcome.orFailure
  · rw [hsettle, hsettle]
    exact h.sameResult grid

/-- Either the grids are refused, whatever the machine, or all depends on the run. -/
theorem shade_cases (renderer : Renderer σ) (shader : Shader) (input output : Grid) :
    (∃ error : MachineError, (∀ limit, error ≠ .instructionLimit limit) ∧ ∀ turns machine,
      shade renderer shader turns input output machine = (.failed (.error error), machine, output)) ∨
    ∀ turns machine, shade renderer shader turns input output machine =
      match load shader input machine with
      | .error fault => (.failed (.fault fault), machine, output)
      | .ok loaded => deliver shader output (execute renderer shader turns loaded) := by
  by_cases hdimensions : (input.width, input.height) = (output.width, output.height)
  · cases hvalid : shader.validate input with
    | error error =>
      refine .inl ⟨error, ?_, fun turns machine => ?_⟩
      · rintro limit rfl
        cases validate_isMismatch hvalid
      · rw [shade, if_neg (not_not_intro hdimensions), hvalid]
    | ok _ =>
      refine .inr fun turns machine => ?_
      rw [shade, if_neg (not_not_intro hdimensions), hvalid]
      cases load shader input machine <;> rfl
  · refine .inl ⟨.gridMismatch (input.width, input.height) (output.width, output.height), by simp,
      fun turns machine => ?_⟩
    rw [shade, if_pos hdimensions]

theorem shadeInPlace_cases (renderer : Renderer σ) (shader : Shader) (grid : Grid) :
    (∃ error : MachineError, (∀ limit, error ≠ .instructionLimit limit) ∧ ∀ turns machine,
      shadeInPlace renderer shader turns grid machine = (.failed (.error error), machine, grid)) ∨
    ∀ turns machine, shadeInPlace renderer shader turns grid machine =
      match load shader grid machine with
      | .error fault => (.failed (.fault fault), machine, grid)
      | .ok loaded => settle shader (shader.unbind grid) (execute renderer shader turns loaded) := by
  cases hvalid : shader.validate grid with
  | error error =>
    refine .inl ⟨error, ?_, fun turns machine => ?_⟩
    · rintro limit rfl
      cases validate_isMismatch hvalid
    · rw [shadeInPlace, hvalid]
  | ok _ =>
    refine .inr fun turns machine => ?_
    rw [shadeInPlace, hvalid]
    cases load shader grid machine <;> rfl

/-- **Shading.**  Machines of one configuration, whatever they hold, give the same results. -/
theorem shade_sameResult (hconfig : machine.config = machine'.config)
    (hworld : machine.world = machine'.world) (hroomy : machine.Roomy) (hroomy' : machine'.Roomy)
    (hkeeps : shader.KeepsToTemporaries) (input output : Grid) :
    SameResult (shade renderer shader turns input output machine)
      (shade renderer shader turns input output machine') := by
  obtain ⟨error, hlimit, hshade⟩ | hshade := shade_cases renderer shader input output
  · rw [hshade, hshade]
    exact .of_failure hworld (by simpa using hlimit)
  · rw [hshade, hshade]
    obtain ⟨fault, hload, hload'⟩ | ⟨loaded, loaded', hload, hload', htwin⟩ :=
      @load_twin _ shader _ _ input hconfig hworld
    · rw [hload, hload']
      exact .of_failure hworld (by simp)
    · rw [hload, hload']
      exact (htwin.execute (hroomy.load hload) (hroomy'.load hload') hkeeps).deliver output

theorem shadeInPlace_sameResult (hconfig : machine.config = machine'.config)
    (hworld : machine.world = machine'.world) (hroomy : machine.Roomy) (hroomy' : machine'.Roomy)
    (hkeeps : shader.KeepsToTemporaries) (grid : Grid) :
    SameResult (shadeInPlace renderer shader turns grid machine)
      (shadeInPlace renderer shader turns grid machine') := by
  obtain ⟨error, hlimit, hshade⟩ | hshade := shadeInPlace_cases renderer shader grid
  · rw [hshade, hshade]
    exact .of_failure hworld (by simpa using hlimit)
  · rw [hshade, hshade]
    obtain ⟨fault, hload, hload'⟩ | ⟨loaded, loaded', hload, hload', htwin⟩ :=
      @load_twin _ shader _ _ grid hconfig hworld
    · rw [hload, hload']
      exact .of_failure hworld (by simp)
    · rw [hload, hload']
      exact (htwin.execute (hroomy.load hload) (hroomy'.load hload') hkeeps).settle _

/-! ### Histories -/

namespace Roomy

variable (h : machine.Roomy)

include h

theorem execute (shader : Shader) : (execute renderer shader turns machine).2.Roomy := by
  rw [Machine.execute]
  split
  next =>
    cases hready : machine.ready shader with
    | error fault => exact h
    | ok first =>
      refine run_invariant Roomy (fun machine next word flow hroomy _ hstep => ?_) turns
        (ready_roomy h hready).2
      obtain ⟨hsize, hconfig⟩ := size_temporaries_of_step hstep
      exact ⟨hsize ▸ hroomy.temporaries, hconfig ▸ hroomy.config⟩
  next => exact h

theorem store (shader : Shader) (grid : Grid) : (store shader grid machine).2.1.Roomy := by
  obtain ⟨_, hframe⟩ := storeSymbols_frame shader.symbols.symbols.toList 0 grid machine
  rw [Machine.store, hframe]
  exact ⟨h.temporaries, h.config⟩

theorem deliver {outcome : Outcome} (shader : Shader) (grid : Grid) :
    (deliver shader grid (outcome, machine)).2.1.Roomy := by
  cases outcome with
  | finished => exact h.store shader grid
  | failed failure => exact h
  | unfinished => exact h

theorem settle {outcome : Outcome} (shader : Shader) (grid : Grid) :
    (settle shader grid (outcome, machine)).2.1.Roomy := by
  obtain ⟨-, hsettle⟩ | hsettle := settle_cases shader outcome
  · rw [hsettle]
    exact h.store shader grid
  · rw [hsettle]
    exact h

theorem shade (shader : Shader) (input output : Grid) :
    (shade renderer shader turns input output machine).2.1.Roomy := by
  obtain ⟨error, -, hshade⟩ | hshade := shade_cases renderer shader input output
  · rw [hshade]
    exact h
  · rw [hshade]
    cases hload : Machine.load shader input machine with
    | error fault => exact h
    | ok loaded => exact ((h.load hload).execute shader).deliver shader output

theorem shadeInPlace (shader : Shader) (grid : Grid) :
    (shadeInPlace renderer shader turns grid machine).2.1.Roomy := by
  obtain ⟨error, -, hshade⟩ | hshade := shadeInPlace_cases renderer shader grid
  · rw [hshade]
    exact h
  · rw [hshade]
    cases hload : Machine.load shader grid machine with
    | error fault => exact h
    | ok loaded => exact ((h.load hload).execute shader).settle shader _

theorem reset {next : Machine σ} (hreset : machine.reset = .ok next) : next.Roomy := by
  simp only [Machine.reset, bind_eq_ok, pure_eq_ok] at hreset
  obtain ⟨_, -, registers, hregisters, rfl⟩ := hreset
  obtain ⟨hroom, rfl⟩ := Registers.clearTemporaries_eq_ok.mp hregisters
  exact ⟨by simpa using hroom, h.config⟩

end Roomy

/-- The machines that come of a new one by shading grids and resetting.  Preparing a grid for a shader
    involves no machine. -/
inductive Reached (renderer : Renderer σ) : Machine σ → Prop
  | new {config : Config} {world : σ} {machine : Machine σ} (h : new config world = .ok machine) :
      Reached renderer machine
  | shade {machine : Machine σ} (before : Reached renderer machine) (shader : Shader) (turns : Nat)
      (input output : Grid) : Reached renderer (shade renderer shader turns input output machine).2.1
  | shadeInPlace {machine : Machine σ} (before : Reached renderer machine) (shader : Shader)
      (turns : Nat) (grid : Grid) :
      Reached renderer (shadeInPlace renderer shader turns grid machine).2.1
  | reset {machine next : Machine σ} (before : Reached renderer machine)
      (h : machine.reset = .ok next) : Reached renderer next

theorem new_eq_ok {config : Config} {world : σ} : new config world = .ok machine ↔
    48 * config.temporaries < 0x8000000000000000 ∧ machine = {
      config := config
      ip := 0
      width := 0
      height := 0
      masks := MaskStack.base 0
      registers := ⟨#[], Array.replicate config.temporaries Value.empty⟩
      bound := #[]
      executed := 0
      world := world } := by
  simp only [new, Registers.emptyTemporaries, bind_eq_ok, requireRoom_eq_ok, pure_eq_ok]
  constructor
  · rintro ⟨_, ⟨_, hroom, rfl⟩, rfl⟩
    exact ⟨hroom, rfl⟩
  · rintro ⟨hroom, rfl⟩
    exact ⟨_, ⟨(), hroom, rfl⟩, rfl⟩

theorem roomy_of_new {config : Config} {world : σ} (h : new config world = .ok machine) :
    machine.Roomy := by
  obtain ⟨hroom, rfl⟩ := new_eq_ok.mp h
  exact ⟨by simpa using hroom, hroom⟩

theorem Reached.roomy (h : Reached renderer machine) : machine.Roomy := by
  induction h with
  | new h => exact roomy_of_new h
  | shade _ shader turns input output ih => exact ih.shade shader input output
  | shadeInPlace _ shader turns grid ih => exact ih.shadeInPlace shader grid
  | reset _ h ih => exact ih.reset h

/-- **Reuse.**  Whatever a machine was used for before, it does what a new machine would do, for every
    shader that keeps to its temporaries. -/
theorem Reached.leaves_no_trace (h : Reached renderer machine) :
    ∃ fresh, Machine.new machine.config machine.world = .ok fresh ∧
      ∀ shader : Shader, shader.KeepsToTemporaries → ∀ turns,
        (∀ input output, SameResult (Machine.shade renderer shader turns input output machine)
          (Machine.shade renderer shader turns input output fresh)) ∧
        ∀ grid, SameResult (Machine.shadeInPlace renderer shader turns grid machine)
          (Machine.shadeInPlace renderer shader turns grid fresh) := by
  have hroomy := h.roomy
  have hnew : Machine.new machine.config machine.world = .ok _ :=
    new_eq_ok.mpr ⟨hroomy.config, rfl⟩
  refine ⟨_, hnew, fun shader hkeeps turns => ⟨fun input output => ?_, fun grid => ?_⟩⟩
  · refine shade_sameResult ?_ ?_ hroomy (roomy_of_new hnew) hkeeps input output <;> rfl
  · refine shadeInPlace_sameResult ?_ ?_ hroomy (roomy_of_new hnew) hkeeps grid <;> rfl

theorem Reached.leaves_no_trace_grey : ∃ first used fresh : Machine Unit,
    Machine.new {} () = .ok first ∧
    (Machine.shadeInPlace (.ofScene .still) doubleWhereSet 10 twoPoints first).1 = .finished ∧
    used = (Machine.shadeInPlace (.ofScene .still) doubleWhereSet 10 twoPoints first).2.1 ∧
    Machine.new used.config used.world = .ok fresh ∧
    SameResult (Machine.shade (.ofScene .still) grey 10 twoPoints twoPoints used)
      (Machine.shade (.ofScene .still) grey 10 twoPoints twoPoints fresh) := by
  obtain ⟨operations, hmade⟩ := assemble_isMadeOf assemble_greyText
  have hnew : Machine.new {} () = .ok _ := new_eq_ok.mpr ⟨by decide, rfl⟩
  have hreached : Reached (.ofScene .still) _ :=
    .shadeInPlace (.new hnew) doubleWhereSet 10 twoPoints
  obtain ⟨fresh, hfresh, hsame⟩ := hreached.leaves_no_trace
  exact ⟨_, _, fresh, hnew, by decide +kernel, rfl, hfresh,
    (hsame grey (hmade.consistsOf (by decide)).keepsToTemporaries 10).1 twoPoints twoPoints⟩

end Machine

end Shading
