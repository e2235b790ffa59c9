import Shading.Proofs.CutBuiltins

namespace Shading

/-!
# Machines at a single point

A machine over many points, cut down to one of them, is a machine over a single point.  A command that
looks at no other points and makes no jump does to the cut what it does to the whole.

* `Registers.cut`, `Machine.cut` — what is left of registers and of a machine;
* `Command.isPointwise`, `Machine.PassesFloats` — the commands in question;
* `Machine.Performed.cut` — a single command;
* `Machine.step_cut` — a single instruction.
-/

variable {points i : Nat}

/-! ### Registers -/

namespace Registers

variable {registers next : Registers} {constants : Array Value} {address : Address} {value : Value}

/-- What is left of the registers at point `i`. -/
def cut (registers : Registers) (i : Nat) : Registers where
  symbols := registers.symbols.map (Value.cut · i)
  temporaries := registers.temporaries.map (Value.cut · i)

theorem fetch_cut {values : Array Value} {n : Nat} (h : fetch values n = .ok value) :
    fetch (values.map (Value.cut · i)) n = .ok (value.cut i) := by
  rw [fetch_map, h]
  rfl

theorem cut_read : (registers.cut i).read (constants.map (Value.cut · i)) address
    = (registers.read constants address).map (Value.cut · i) := by
  cases address <;> exact fetch_map

theorem read_cut (h : registers.read constants address = .ok value) :
    (registers.cut i).read (constants.map (Value.cut · i)) address = .ok (value.cut i) := by
  rw [cut_read, h]
  rfl

theorem target_cut (h : registers.target address = .ok value) :
    (registers.cut i).target address = .ok (value.cut i) := by
  cases address with
  | constant n => cases h
  | symbol n => exact fetch_cut h
  | temporary n => exact fetch_cut h

theorem claim_cut (h : registers.claim address = .ok value) :
    (registers.cut i).claim address = .ok (value.cut i) := by
  cases address with
  | symbol n =>
    obtain rfl := Except.ok.inj h
    rfl
  | constant n => cases h
  | temporary n => exact fetch_cut h

theorem put_cut (h : registers.put address value = .ok next) :
    (registers.cut i).put address (value.cut i) = .ok (next.cut i) := by
  cases address with
  | constant n => exact (put_constant.mp h).elim
  | symbol n =>
    obtain ⟨hlt, rfl⟩ := put_symbol.mp h
    refine put_symbol.mpr ⟨by simpa [cut] using hlt, ?_⟩
    simp [cut, Array.map_setIfInBounds]
  | temporary n =>
    obtain ⟨hlt, rfl⟩ := put_temporary.mp h
    refine put_temporary.mpr ⟨by simpa [cut] using hlt, ?_⟩
    simp [cut, Array.map_setIfInBounds]

theorem checkAliases_cut {operands : List Address}
    (h : registers.checkAliases constants address operands = .ok ()) :
    (registers.cut i).checkAliases (constants.map (Value.cut · i)) address operands = .ok () := by
  refine forM_eq_ok.mpr fun operand hoperand => ?_
  have hoperand := forM_eq_ok.mp h operand hoperand
  split at hoperand
  next hsame =>
    obtain ⟨value, hvalue⟩ := discard_eq_ok.mp hoperand
    rw [if_pos hsame]
    exact discard_eq_ok.mpr ⟨_, read_cut hvalue⟩
  next hother => rw [if_neg hother]

theorem Takes.cut {masks : MaskStack} {target taken : Value} (hi : i < points)
    (hmasks : masks.Over points) (htarget : target.Over points) (hvalue : value.Over points)
    (h : Takes masks points target value taken) :
    Takes (masks.cut i) 1 (target.cut i) (value.cut i) (taken.cut i) := by
  cases h with
  | empty hempty => exact .empty (by rwa [htarget.cut_isEmpty hi])
  | uniform hempty hstorage hstorage' =>
    exact .uniform (by rwa [htarget.cut_isEmpty hi]) (by rwa [Value.cut_storage])
      (by rwa [Value.cut_storage])
  | varying full mask floats hempty hstorage hcomponents hfull hmask hmerge =>
    obtain ⟨hfullover, hfullstorage, hfullcomponents⟩ := spread_over hvalue hfull
    have hcut := merge_cut hi htarget hfullover hstorage hfullstorage
      (hcomponents.trans hfullcomponents.symm) (hmasks.active hmask) hmerge
    have hwith : { target with floats := floats }.cut i
        = { target.cut i with floats := ({ target with floats := floats }.cut i).floats } :=
      Value.cut_eq_with_floats
    rw [hwith]
    refine .varying (full.cut i) (mask.map (cutMask i)) _ (by rwa [htarget.cut_isEmpty hi])
      (by rwa [Value.cut_storage]) ?_ (spread_cut hi hfull) (MaskStack.active_cut hmask) ?_
    · rw [Value.cut_components, Value.cut_components, hcomponents]
    · rw [Value.cut_components]
      exact hcut

/-- **Results.**  What a register takes at a point is the value at that point. -/
theorem commit_cut {masks : MaskStack} (hi : i < points) (hmasks : masks.Over points)
    (hover : registers.Over points) (hvalue : value.Over points)
    (h : registers.commit masks points address value = .ok next) :
    (registers.cut i).commit (masks.cut i) 1 address (value.cut i) = .ok (next.cut i) := by
  cases address with
  | constant n => exact (commit_constant.mp h).elim
  | temporary n =>
    have hput : registers.put (.temporary n) value = .ok next :=
      put_temporary.mpr (commit_temporary.mp h)
    exact commit_temporary.mpr (put_temporary.mp (put_cut hput))
  | symbol n =>
    obtain ⟨target, taken, htarget, htakes, rfl⟩ := commit_symbol_eq_ok.mp h
    have htakes := htakes.cut hi hmasks (hover.symbols n target htarget) hvalue
    refine commit_symbol_eq_ok.mpr ⟨target.cut i, taken.cut i, ?_, htakes, ?_⟩
    · simp [cut, htarget]
    · simp [cut, Array.map_setIfInBounds]

theorem clearTemporaries_cut {count : Nat} (h : registers.clearTemporaries count = .ok next) :
    (registers.cut i).clearTemporaries count = .ok (next.cut i) := by
  obtain ⟨hroom, rfl⟩ := clearTemporaries_eq_ok.mp h
  refine clearTemporaries_eq_ok.mpr ⟨by simpa [cut] using hroom, ?_⟩
  simp [cut]

end Registers

/-! ### Commands on registers -/

namespace Machine

variable {σ : Type} {constants : Array Value} {machine next : Machine σ} {instruction : Instruction}

/-- What is left of a machine at point `i`. -/
def cut (machine : Machine σ) (i : Nat) : Machine σ :=
  { machine with
    width := 1
    height := 1
    masks := machine.masks.cut i
    registers := machine.registers.cut i }

theorem compute_cut {op : PointOp} {type : Option ElementType} {result first last : Address}
    (hi : i < points) (hover : machine.Over points) (hfits : op.Fits) (hyields : op.Yields type)
    (h : machine.compute constants instruction op type result first last = .ok next) :
    (machine.cut i).compute (constants.map (Value.cut · i)) instruction op type result first last
      = .ok (next.cut i) := by
  obtain ⟨destination, a, b, fitted, floats, registers, halias, hclaim, ha, hb, hsuits, hfitted,
    hfloats, hcommit, rfl⟩ := compute_eq_ok.mp h
  rw [hover.points_eq] at hsuits hfitted hfloats hcommit
  have hdestination := hover.registers.claim hclaim
  have hfittedover := Value.ensure_over hdestination hfitted
  obtain ⟨htype, hstorage, hsize⟩ := Value.fits_iff.mp (Value.fits_of_ensure hfitted)
  have hwidth : fitted.components = op.width := by
    rw [Value.components, htype, PointOp.components_resultType hsuits hyields]
  have hrun := PointOp.run_cut hi hfits hsuits hfittedover hstorage hsize hwidth hfloats
  have hvalue : { fitted with floats := floats }.Over points := by
    refine hfittedover.with_floats ?_
    exact (fill_eq_ok.mp (PointOp.run_eq_ok.mp hfloats).2).2.1
  have hcommit := Registers.commit_cut hi hover.masks hover.registers hvalue hcommit
  rw [Value.cut_eq_with_floats] at hcommit
  refine compute_eq_ok.mpr ⟨destination.cut i, a.cut i, b.cut i, fitted.cut i, _,
    registers.cut i, Registers.checkAliases_cut halias, Registers.claim_cut hclaim,
    Registers.read_cut ha, Registers.read_cut hb, hsuits.cut, ?_, hrun, hcommit, rfl⟩
  rw [PointOp.resultType_cut]
  exact Value.ensure_cut hdestination hi hfitted

theorem shaped_cut {update : Update} {target : Address} {destination value written : Value}
    (hi : i < points) (hdestination : destination.Over points)
    (h : shaped points update target destination value = .ok written) :
    shaped 1 update target (destination.cut i) (value.cut i) = .ok (written.cut i) := by
  unfold shaped at h ⊢
  have hsame : IsReshaped update target (destination.cut i) ↔
      IsReshaped update target destination := by
    unfold IsReshaped
    rw [hdestination.cut_isEmpty hi, Value.cut_shape?]
  by_cases hreshaped : IsReshaped update target destination
  · rw [if_pos hreshaped] at h
    rw [if_pos (hsame.mpr hreshaped), Value.cut_type]
    exact Value.allocate_cut hi h
  · rw [if_neg hreshaped] at h
    obtain rfl := Except.ok.inj h
    rw [if_neg (fun hcut => hreshaped (hsame.mp hcut))]

theorem assignmentMask_cut {masks : MaskStack} {update : Update} {mask : Option Mask}
    (h : assignmentMask masks update = .ok mask) :
    assignmentMask (masks.cut i) update = .ok (mask.map (cutMask i)) := by
  unfold assignmentMask at h ⊢
  obtain hstorage | hstorage := update.destination.storage.uniform_or_varying
  · rw [hstorage] at h ⊢
    obtain rfl := Except.ok.inj h
    rfl
  · rw [hstorage] at h ⊢
    exact MaskStack.active_cut h

theorem assign_cut {update : Update} {target source : Address} (hi : i < points)
    (hover : machine.Over points) (hfits : update.Fits)
    (h : machine.assign constants instruction update target source = .ok next) :
    (machine.cut i).assign (constants.map (Value.cut · i)) instruction update target source
      = .ok (next.cut i) := by
  obtain ⟨destination, value, written, mask, floats, registers, halias, htarget, hvalue, hsource,
    hwritten, hshape, hmask, hfloats, hput, rfl⟩ := assign_eq_ok.mp h
  rw [hover.points_eq] at hsource hwritten hshape hfloats
  have hdestination := hover.registers.target htarget
  have hrun := Update.run_cut hi hfits hshape (shaped_over hdestination hwritten) hsource hfloats
  have hput' := Registers.put_cut (i := i) hput
  rw [Value.cut_eq_with_floats] at hput'
  exact assign_eq_ok.mpr ⟨destination.cut i, value.cut i, written.cut i, mask.map (cutMask i), _,
    registers.cut i, Registers.checkAliases_cut halias, Registers.target_cut htarget,
    Registers.read_cut hvalue, hsource.cut, shaped_cut hi hdestination hwritten, hshape.cut,
    assignmentMask_cut hmask, hrun, hput', rfl⟩

/-! ### Calls -/

/-- Where a builtin reads a float at every point, the command passes it a float. -/
def PassesFloats (constants : Array Value) (machine : Machine σ) : Command → Prop
  | .call function _ addresses => ∀ n ∈ function.floatPlaces, ∀ address value,
      addresses[n]? = some address → machine.registers.read constants address = .ok value →
      value.type = .float
  | _ => True

theorem argument_cut {function : Builtin} {result address : Address} {addresses : List Address}
    {n : Nat} {value : Value}
    (h : machine.argument constants function result addresses n address = .ok value) :
    (machine.cut i).argument (constants.map (Value.cut · i)) function result addresses n address
      = .ok (value.cut i) := by
  unfold argument at h ⊢
  by_cases hcopied : isCopied function result address = true
  · rw [if_pos hcopied] at h ⊢
    exact Registers.read_cut h
  · rw [if_neg hcopied] at h ⊢
    by_cases hmoved : (addresses.take n).contains address = true
    · rw [if_pos hmoved] at h ⊢
      obtain rfl := Except.ok.inj h
      rfl
    · rw [if_neg hmoved] at h ⊢
      exact Registers.read_cut h

theorem restore_cut {function : Builtin} {result : Address} {addresses : List Address}
    {values : Array Value} {registers : Registers}
    (h : machine.restore function result addresses values = .ok registers) :
    (machine.cut i).restore function result addresses (values.map (Value.cut · i))
      = .ok (registers.cut i) := by
  refine foldlM_hom (Registers.cut · i) ?_ h
  rintro registers ⟨address, n⟩ next - hput
  dsimp only at hput ⊢
  split at hput
  next hleft =>
    obtain rfl := pure_eq_ok.mp hput
    rw [if_pos hleft]
    rfl
  next hleft =>
    obtain ⟨value, hvalue, hput⟩ := bind_eq_ok.mp hput
    rw [if_neg hleft]
    exact bind_eq_ok.mpr ⟨_, Registers.fetch_cut hvalue, Registers.put_cut hput⟩

theorem call_cut {scene : Scene} {function : Builtin} {result : Address}
    {addresses : List Address} (hi : i < points) (hover : machine.Over points)
    (hconstants : Value.AllOver points constants) (hpointwise : function.isPointwise = true)
    (hfloats : machine.PassesFloats constants (.call function result addresses))
    (h : machine.call constants scene function result addresses = .ok next) :
    (machine.cut i).call (constants.map (Value.cut · i)) scene function result addresses
      = .ok (next.cut i) := by
  obtain ⟨arguments, mask, reply, registers, harguments, hclaim, hmask, hrun, hreplied, rfl⟩ :=
    call_eq_ok.mp h
  have hpoints : (Setting.mk scene machine.width machine.height mask).points = points :=
    hover.points_eq
  have hallover := arguments_over hover.registers hconstants harguments
  rw [← hpoints] at hallover
  have hreply := Builtin.run_over hallover hrun
  have hrun' := Builtin.run_cut (i := i) hpointwise (by rwa [hpoints]) hallover
    (fun n hn value hvalue _ => ?_) hrun
  · rw [hpoints] at hreply
    have hreplied' : (machine.cut i).replied function result addresses (reply.cut i)
        = .ok (registers.cut i) := by
      cases reply with
      | result value =>
        rw [replied, hover.points_eq] at hreplied
        exact Registers.commit_cut hi hover.masks hover.registers hreply hreplied
      | arguments values => exact restore_cut hreplied
    obtain ⟨hlength, hall⟩ := mapM_eq_ok.mp harguments
    refine call_eq_ok.mpr ⟨arguments.map (Value.cut · i), mask.map (cutMask i), reply.cut i,
      registers.cut i, mapM_eq_ok.mpr ⟨by simpa using hlength, fun n entry hentry => ?_⟩,
      fun hvoid => (hclaim hvoid).imp' (Value.cut · i) fun value => Registers.claim_cut,
      MaskStack.active_cut hmask, ?_, hreplied', rfl⟩
    · obtain ⟨value, hvalue, hentry⟩ := hall n entry hentry
      exact ⟨value.cut i, by simp [hvalue], argument_cut hentry⟩
    · rw [← List.map_toArray]
      exact hrun'
  · obtain ⟨address, haddress, rfl | hread⟩ := exists_of_argument harguments hvalue
    · rfl
    · exact hfloats n hn address value haddress hread

end Machine

/-! ### All commands -/

/-- The command makes no jump, evaluates no shader and looks at no neighbours. -/
def Command.isPointwise : Command → Bool
  | .jump _ _ | .evaluate _ => false
  | .call function _ _ => function.isPointwise
  | _ => true

/-- What is left of a shader at point `i`. -/
def Shader.cut (shader : Shader) (i : Nat) : Shader :=
  { shader with constants := shader.constants.map (Value.cut · i) }

namespace Machine

variable {σ : Type} {renderer : Renderer σ} {shader : Shader} {machine next : Machine σ}
  {command : Command} {flow : Flow}

/-- **Commands.**  What a pointwise command does at a point depends on the machine there. -/
theorem Performed.cut {instruction : Instruction} (hi : i < points) (hover : machine.Over points)
    (hconstants : Value.AllOver points shader.constants) (hpointwise : command.isPointwise = true)
    (hfits : command.Fits) (hfloats : machine.PassesFloats shader.constants command)
    (h : Performed renderer shader instruction machine command flow next) :
    Performed renderer (shader.cut i) instruction (machine.cut i) command flow (next.cut i) := by
  cases h with
  | nothing => exact .nothing
  | halt => exact .halt
  | discard registers h => exact .discard _ (Registers.clearTemporaries_cut h)
  | clearMask masks h => exact .clearMask _ (MaskStack.clear_cut h)
  | generateMask predicate value masks hvalue h =>
    exact .generateMask predicate _ _ (Registers.read_cut hvalue)
      (MaskStack.generate_cut hi hover.masks h)
  | invertMask masks h => exact .invertMask _ (MaskStack.invert_cut hi hover.masks h)
  | pass | jump | evaluate => cases hpointwise
  | compute op type result first last _ h =>
    exact .compute op type result first last _ (compute_cut hi hover hfits.1 hfits.2 h)
  | assign update target source _ h =>
    exact .assign update target source _ (assign_cut hi hover hfits h)
  | call function result addresses _ h =>
    exact .call function result addresses _ (call_cut hi hover hconstants hpointwise hfloats h)

theorem moved_cut {code : Array Word} {ip : Nat} {opcode : Opcode}
    (h : machine.moved code ip opcode flow = .ok next) :
    (machine.cut i).moved code ip opcode flow = .ok (next.cut i) := by
  cases flow with
  | next =>
    obtain ⟨size, hsize, h⟩ := bind_eq_ok.mp h
    obtain rfl := pure_eq_ok.mp h
    exact bind_eq_ok.mpr ⟨size, hsize, rfl⟩
  | jump target =>
    obtain rfl := Except.ok.inj h
    rfl
  | halt =>
    obtain rfl := Except.ok.inj h
    rfl

/-- **Instructions.**  What a pointwise instruction does at a point. -/
theorem step_cut {word : Word} (hi : i < points) (hover : machine.Over points)
    (hconstants : Value.AllOver points shader.constants)
    (hword : shader.code[machine.ip]? = some word)
    (hcommand : ∀ command, shader.CommandAt machine.ip command →
      command.isPointwise = true ∧ machine.PassesFloats shader.constants command)
    (h : machine.step renderer shader word = .ok (flow, next)) :
    (machine.cut i).step renderer (shader.cut i) word = .ok (flow, next.cut i) := by
  obtain ⟨instruction, command, last, hinstruction, hdecode, hperform, hmoved⟩ := step_eq_ok.mp h
  obtain ⟨hpointwise, hfloats⟩ := hcommand command ⟨word, instruction, hword, hinstruction, hdecode⟩
  have hfloats : { machine with executed := machine.executed + 1 }.PassesFloats shader.constants
      command := by
    cases command <;> exact hfloats
  have hcut := (perform_eq_ok.mp hperform).cut hi hover.counted hconstants hpointwise
    (Command.fits_of_decode hdecode) hfloats
  exact step_eq_ok.mpr ⟨instruction, command, last.cut i, hinstruction, hdecode,
    perform_eq_ok.mpr hcut, moved_cut hmoved⟩

end Machine

end Shading
