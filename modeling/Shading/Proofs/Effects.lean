import Shading.Proofs.Footprint
import Shading.Proofs.Lockstep
import Shading.Proofs.Results

namespace Shading

/-!
# What a command does to a symbol

Most commands overwrite floats of a symbol, and leave its type, storage and size alone.  The others
are told apart here: a symbol that is uniform or holds nothing takes a result as it is, one that holds
nothing takes the shape of what is assigned to it, and an output of `fresnel` becomes a varying float.

* `Machine.Offers` — the results that a command computes for a symbol;
* `Command.outputsTo` — the symbols that `fresnel` writes;
* `Machine.Change` — what a symbol may hold after a command;
* `Machine.Performed.change` — it holds no more than that;
* `Machine.run_reaches` — the registers at the end of a run are those of a machine it came to.
-/

/-- The symbol is an output of `fresnel`, and none of the values that this reads. -/
def Command.outputsTo (slot : Nat) : Command → Bool
  | .call .fresnel _ arguments =>
    (arguments.drop 3).contains (.symbol slot) && !(arguments.take 3).contains (.symbol slot)
  | _ => false

/-- The outputs of `fresnel` are varying floats. -/
theorem Setting.fits_of_fresnel {setting : Setting} {arguments values : Array Value}
    (h : setting.fresnel arguments = .ok values) {n : Nat} {after : Value} (hn : n = 3 ∨ n = 4)
    (hafter : values[n]? = some after) : after.fits .float .varying setting.points = true := by
  obtain ⟨_, _, _, r, t, kr, kt, floats, -, -, -, hr, ht, -, -, hkr, hkt, -, rfl⟩ :=
    fresnel_eq_ok.mp h
  have hfloats : ∀ (value : Value) floats, value.fits .float .varying setting.points = true →
      { value with floats := floats }.fits .float .varying setting.points = true := fun _ _ h => h
  rw [Array.getElem?_setIfInBounds, Array.getElem?_setIfInBounds] at hafter
  obtain rfl | rfl := hn
  · rw [if_neg (by decide), if_pos rfl, if_pos (Array.getElem?_eq_some_iff.mp hr).1] at hafter
    obtain rfl := Option.some.inj hafter
    exact hfloats kr _ (Value.fits_of_ensure hkr)
  · rw [if_pos rfl, if_pos (by simpa using (Array.getElem?_eq_some_iff.mp ht).1)] at hafter
    obtain rfl := Option.some.inj hafter
    exact hfloats kt _ (Value.fits_of_ensure hkt)

namespace Machine

variable {σ : Type} {renderer : Renderer σ} {shader : Shader} {constants : Array Value}
  {machine next : Machine σ} {instruction : Instruction} {command : Command} {flow : Flow}
  {slot : Nat} {old new : Value}

/-- The type, storage and size of what a command computes for the symbol in a slot. -/
inductive Offers (scene : Scene) (constants : Array Value) (machine : Machine σ) (slot : Nat) :
    Command → Value → Prop
  | compute {op : PointOp} {type : Option ElementType} {first last : Address} {a b value : Value}
      (ha : machine.registers.read constants first = .ok a)
      (hb : machine.registers.read constants last = .ok b)
      (hfits : value.fits (type.getD (op.resultType a b)) op.storage
        (op.storage.size machine.points) = true) :
      Offers scene constants machine slot (.compute op type (.symbol slot) first last) value
  | call {function : Builtin} {addresses : List Address} {arguments : List Value}
      {mask : Option Mask} {value : Value}
      (harguments : addresses.zipIdx.mapM (fun (address, n) =>
        machine.argument constants function (.symbol slot) addresses n address) = .ok arguments)
      (hmask : machine.masks.active = .ok mask)
      (hrun : function.run ⟨scene, machine.width, machine.height, mask⟩ arguments.toArray
        = .ok (.result value)) :
      Offers scene constants machine slot (.call function (.symbol slot) addresses) value

/-- What the symbol in a slot may hold after a command, if it held `old` before. -/
inductive Change (scene : Scene) (constants : Array Value) (machine : Machine σ) (command : Command)
    (slot : Nat) (old : Value) : Value → Prop
  /-- Other floats at most. -/
  | floats (floats : Buffer) :
      Change scene constants machine command slot old { old with floats := floats }
  /-- A result, taken as it is. -/
  | result {value : Value} (hoffers : Offers scene constants machine slot command value)
      (htakes : old.isEmpty = true ∨ old.storage = .uniform ∧ value.storage = .uniform) :
      Change scene constants machine command slot old value
  /-- What is assigned to a symbol that holds nothing. -/
  | assigned {value : Value} (hempty : old.isEmpty = true)
      (hsize : value.size = value.storage.size machine.points) :
      Change scene constants machine command slot old value
  /-- An output of `fresnel`. -/
  | output {value : Value} (houtputs : command.outputsTo slot = true)
      (hfits : value.fits .float .varying machine.points = true) :
      Change scene constants machine command slot old value

theorem Change.refl {scene : Scene} : Change scene constants machine command slot old old :=
  .floats old.floats

/-- A symbol of another slot is left alone. -/
theorem Change.of_ne {scene : Scene} {symbols : Array Value} {n : Nat} {value : Value}
    (hne : n ≠ slot) (hold : symbols[slot]? = some old)
    (hnew : (symbols.setIfInBounds n value)[slot]? = some new) :
    Change scene constants machine command slot old new := by
  rw [Array.getElem?_setIfInBounds_ne hne, hold] at hnew
  exact Option.some.inj hnew ▸ .refl

/-- A symbol that takes a result. -/
theorem Change.of_commit {scene : Scene} {result : Address} {value : Value} {registers : Registers}
    (hoffers : result = .symbol slot → Offers scene constants machine slot command value)
    (hold : machine.registers.symbols[slot]? = some old)
    (hnew : registers.symbols[slot]? = some new)
    (h : machine.registers.commit machine.masks machine.points result value = .ok registers) :
    Change scene constants machine command slot old new := by
  cases result with
  | constant n => exact (Registers.commit_constant.mp h).elim
  | temporary n =>
    obtain ⟨-, rfl⟩ := Registers.commit_temporary.mp h
    exact Option.some.inj (hold.symm.trans hnew) ▸ .refl
  | symbol n =>
    obtain ⟨target, taken, htarget, htakes, rfl⟩ := Registers.commit_symbol_eq_ok.mp h
    by_cases hslot : n = slot
    · subst hslot
      obtain rfl := Option.some.inj (htarget.symm.trans hold)
      have htaken : (machine.registers.symbols.setIfInBounds n taken)[n]? = some taken := by
        simp [(Array.getElem?_eq_some_iff.mp htarget).1]
      obtain rfl := Option.some.inj (htaken.symm.trans hnew)
      cases htakes with
      | empty hempty => exact .result (hoffers rfl) (.inl hempty)
      | uniform _ hstorage hvalue => exact .result (hoffers rfl) (.inr ⟨hstorage, hvalue⟩)
      | varying _ _ floats => exact .floats floats
    · exact .of_ne hslot hold hnew

theorem compute_change {scene : Scene} {op : PointOp} {type : Option ElementType}
    {result first last : Address} (hold : machine.registers.symbols[slot]? = some old)
    (hnew : next.registers.symbols[slot]? = some new)
    (h : machine.compute constants instruction op type result first last = .ok next) :
    Change scene constants machine (.compute op type result first last) slot old new := by
  obtain ⟨_, a, b, fitted, floats, registers, -, -, ha, hb, -, hfitted, -, hcommit, rfl⟩ :=
    compute_eq_ok.mp h
  have hfits := Value.fits_of_ensure hfitted
  refine .of_commit ?_ hold hnew hcommit
  rintro rfl
  exact .compute ha hb hfits

theorem assign_change {scene : Scene} {update : Update} {target source : Address}
    (hold : machine.registers.symbols[slot]? = some old)
    (hnew : next.registers.symbols[slot]? = some new)
    (h : machine.assign constants instruction update target source = .ok next) :
    Change scene constants machine (.assign update target source) slot old new := by
  obtain ⟨destination, value, written, _, floats, registers, -, htarget, -, -, hwritten, hshape, -, -,
    hput, rfl⟩ := assign_eq_ok.mp h
  cases target with
  | constant n => exact (Registers.put_constant.mp hput).elim
  | temporary n =>
    obtain ⟨-, rfl⟩ := Registers.put_temporary.mp hput
    exact Option.some.inj (hold.symm.trans hnew) ▸ .refl
  | symbol n =>
    obtain ⟨hlt, rfl⟩ := Registers.put_symbol.mp hput
    by_cases hslot : n = slot
    · subst hslot
      obtain rfl : destination = old :=
        Option.some.inj ((fetch_eq_ok.mp htarget).symm.trans hold)
      have htaken : (machine.registers.symbols.setIfInBounds n { written with floats := floats })[n]?
          = some { written with floats := floats } := by simp [hlt]
      obtain rfl := Option.some.inj (htaken.symm.trans hnew)
      unfold shaped at hwritten
      split at hwritten
      next hreshaped =>
        -- a symbol is given another shape only if it holds nothing
        have hempty : destination.isEmpty = true := by simpa using hreshaped.2
        refine .assigned hempty (hshape.size_eq.trans ?_)
        rw [← (Value.shape?_eq_some.mp hshape.shape_eq).1]
      next =>
        obtain rfl := Except.ok.inj hwritten
        exact .floats floats
    · exact .of_ne hslot hold hnew

/-- What a void builtin leaves in a register that its argument was moved out of. -/
theorem Change.of_arguments {scene : Scene} {function : Builtin} {result : Address}
    {addresses : List Address} {arguments values : Array Value} {mask : Option Mask} {n : Nat}
    (hrun : function.run ⟨scene, machine.width, machine.height, mask⟩ arguments
      = .ok (.arguments values))
    (haddress : addresses[n]? = some (.symbol slot))
    (hfirst : Address.symbol slot ∉ addresses.take n)
    (hold : arguments[n]? = some old) (hnew : values[n]? = some new) :
    Change scene constants machine (.call function result addresses) slot old new := by
  obtain ⟨axis, rfl, hcomponent⟩ | ⟨rfl, hfresnel⟩ := run_arguments hrun
  · obtain rfl | ⟨-, floats, rfl⟩ := setComponent_place hcomponent hold hnew
    · exact .refl
    · exact .floats floats
  · obtain rfl | ⟨hn, -⟩ := fresnel_place hfresnel hold hnew
    · exact .refl
    · refine .output ?_ (Setting.fits_of_fresnel hfresnel hn hnew)
      have hmem : Address.symbol slot ∈ addresses.drop 3 := by
        refine List.mem_of_getElem? (i := n - 3) ?_
        rw [List.getElem?_drop, ← haddress]
        congr 1
        omega
      have hnot : Address.symbol slot ∉ addresses.take 3 := fun hmem =>
        hfirst (List.take_subset_take_left addresses (by omega) hmem)
      simp [Command.outputsTo, hmem, hnot]

theorem call_change {scene : Scene} {function : Builtin} {result : Address}
    {addresses : List Address} (hold : machine.registers.symbols[slot]? = some old)
    (hnew : next.registers.symbols[slot]? = some new)
    (h : machine.call constants scene function result addresses = .ok next) :
    Change scene constants machine (.call function result addresses) slot old new := by
  obtain ⟨arguments, mask, reply, registers, harguments, -, hmask, hrun, hreplied, rfl⟩ :=
    call_eq_ok.mp h
  cases reply with
  | result value =>
    refine .of_commit ?_ hold hnew hreplied
    rintro rfl
    exact .call harguments hmask hrun
  | arguments values =>
    obtain ⟨-, harguments⟩ := mapM_eq_ok.mp harguments
    refine foldlM_invariant (fun registers => ∀ new, registers.symbols[slot]? = some new →
      Change scene constants machine (.call function result addresses) slot old new) ?_ ?_ hreplied
      new hnew
    · intro new hnew
      exact Option.some.inj (hold.symm.trans hnew) ▸ .refl
    · rintro registers ⟨address, n⟩ after hmem hregisters hput new hnew
      have haddress : addresses[n]? = some address := List.mk_mem_zipIdx_iff_getElem?.mp hmem
      dsimp only at hput
      split at hput
      next =>
        obtain rfl := pure_eq_ok.mp hput
        exact hregisters new hnew
      next hfirst =>
        obtain ⟨left, hleft, hput⟩ := bind_eq_ok.mp hput
        by_cases hslot : address = .symbol slot
        · subst hslot
          obtain ⟨hlt, rfl⟩ := Registers.put_symbol.mp hput
          obtain rfl : left = new := by simpa [hlt] using hnew
          -- the argument was moved out of the register that it is put back to
          obtain ⟨value, hvalue, hargument⟩ := harguments n (.symbol slot, n) (by simp [haddress])
          rw [Bool.or_eq_true, not_or] at hfirst
          change machine.argument constants function result addresses n _ = _ at hargument
          rw [argument, if_neg hfirst.1, if_neg hfirst.2] at hargument
          obtain rfl : value = old := Option.some.inj ((fetch_eq_ok.mp hargument).symm.trans hold)
          exact .of_arguments hrun haddress (by simpa using hfirst.2) (by simpa using hvalue)
            (fetch_eq_ok.mp hleft)
        · refine hregisters new ?_
          have hread := @Registers.read_put _ _ _ _ #[] hput (.symbol slot)
          rw [if_neg (Ne.symm hslot)] at hread
          exact fetch_eq_ok.mp (hread.symm.trans (fetch_eq_ok.mpr hnew))

/-- **Symbols.**  All that a command can do to a symbol, as long as the renderer does no more than
    overwrite floats. -/
theorem Performed.change (hrenderer : renderer.OnlyWritesFloats)
    (h : Performed renderer shader instruction machine command flow next)
    (hold : machine.registers.symbols[slot]? = some old)
    (hnew : next.registers.symbols[slot]? = some new) :
    Change renderer.scene shader.constants machine command slot old new := by
  cases h with
  | nothing | halt | clearMask | generateMask | invertMask | pass | jump =>
    exact Option.some.inj (hold.symm.trans hnew) ▸ .refl
  | discard registers h =>
    obtain ⟨-, rfl⟩ := Registers.clearTemporaries_eq_ok.mp h
    exact Option.some.inj (hold.symm.trans hnew) ▸ .refl
  | compute _ _ _ _ _ _ h => exact compute_change hold hnew h
  | assign _ _ _ _ h => exact assign_change hold hnew h
  | call _ _ _ _ h => exact call_change hold hnew h
  | evaluate name _ h =>
    obtain ⟨_, text, -, -, rfl⟩ := evaluate_eq_ok.mp h
    obtain ⟨floats, -, hfloats⟩ := hrenderer.floats text
      ⟨shader.symbols, machine.registers.symbols⟩ machine.world slot old hold
    exact Option.some.inj (hfloats.symm.trans hnew) ▸ .floats floats

/-- The same, from what the symbol holds afterwards. -/
theorem Performed.exists_change (hrenderer : renderer.OnlyWritesFloats)
    (h : Performed renderer shader instruction machine command flow next)
    (hnew : next.registers.symbols[slot]? = some new) :
    ∃ old, machine.registers.symbols[slot]? = some old ∧
      Change renderer.scene shader.constants machine command slot old new := by
  have hlt : slot < machine.registers.symbols.size := by
    rw [← (h.sameSizes hrenderer.keepsCount).symbols]
    exact (Array.getElem?_eq_some_iff.mp hnew).1
  have hold := Array.getElem?_eq_getElem hlt
  exact ⟨_, hold, h.change hrenderer hold hnew⟩

/-! ### Runs -/

/-- The last turn of a run leaves the registers alone. -/
theorem registers_of_turn {outcome : Outcome} {last : Machine σ}
    (h : turn renderer shader machine = .over outcome last) : last.registers = machine.registers := by
  rw [turn] at h
  split at h
  next => cases h; rfl
  next word hword =>
    split at h
    next => cases h; rfl
    next =>
      split at h
      next => cases h; rfl
      next last' hstep =>
        cases h
        obtain ⟨_, _, after, -, -, hperform, hmoved⟩ := step_eq_ok.mp hstep
        obtain rfl := Except.ok.inj hmoved
        cases perform_eq_ok.mp hperform
        rfl
      next => cases h

/-- A run ends with the registers of a machine that it came to. -/
theorem run_reaches (renderer : Renderer σ) (shader : Shader) (turns : Nat) (machine : Machine σ) :
    ∃ reached, Reaches renderer shader machine reached ∧
      (run renderer shader turns machine).2.registers = reached.registers := by
  induction turns generalizing machine with
  | zero => exact ⟨machine, .start, rfl⟩
  | succ turns ih =>
    rw [run]
    rcases hturn : turn renderer shader machine with next | ⟨outcome, last⟩
    · obtain ⟨reached, hreaches, hregisters⟩ := ih next
      exact ⟨reached, .head hturn hreaches, hregisters⟩
    · exact ⟨machine, .start, registers_of_turn hturn⟩

end Machine

end Shading
