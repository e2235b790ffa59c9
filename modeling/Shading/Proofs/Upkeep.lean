import Shading.Proofs.CutKernels
import Shading.Proofs.Replies

namespace Shading

/-!
# What every command keeps

Whatever a command does, there are as many registers after it as before, and what they hold suits the
points of the grid, as the masks do.  This is so for all commands and any number of points, none
included, as long as the renderer does no more than overwrite floats.

* `Registers.Over`, `Machine.Over` — registers and machines whose parts suit the points;
* `Registers.SameSizes` — as many symbols and as many temporaries;
* `Renderer.KeepsCount`, `Renderer.OnlyWritesFloats` — what is asked of a renderer;
* `Builtin.run_over` — the replies of builtins;
* `Machine.Performed.sameSizes`, `Machine.Performed.over` — all commands.
-/

variable {points : Nat}

/-! ### Builtins -/

namespace Value

variable {value : Value}

/-- A triple is not the value that holds nothing. -/
theorem Over.size_of_isTriple (h : value.Over points) (htriple : value.type.isTriple = true) :
    value.size = value.storage.size points := by
  rcases h.size with rfl | hsize
  · cases htriple
  · exact hsize

/-- Zeros in place of the floats of a value. -/
theorem Over.zeros (h : value.Over points) :
    (zeros value.type value.storage value.size).Over points := by
  refine ⟨h.size.imp_left ?_, Array.size_replicate⟩
  rintro rfl
  rfl

end Value

/-- A reply made of values over so many points. -/
def Reply.Over (points : Nat) : Reply → Prop
  | .result value => value.Over points
  | .arguments values => Value.AllOver points values

namespace Setting

variable {setting : Setting} {storage : Storage} {arguments values : Array Value} {value out : Value}

theorem floats_over {f : Nat → Except Fault Float32} (h : setting.floats storage f = .ok out) :
    out.Over setting.points := by
  obtain ⟨-, xs, hxs, rfl⟩ := floats_eq_ok.mp h
  refine ⟨.inr rfl, ?_⟩
  exact (tabulate_eq_ok.mp hxs).1.trans (Nat.one_mul _).symm

theorem triples_over {type : ElementType} {f : Nat → Except Fault Vec3}
    (htype : type.components = 3) (h : setting.triples type storage f = .ok out) :
    out.Over setting.points := by
  obtain ⟨-, xs, hxs, rfl⟩ := triples_eq_ok.mp h
  refine ⟨.inr rfl, size_flatMap_triples.trans ?_⟩
  rw [(tabulate_eq_ok.mp hxs).1, Value.components, htype]

/-- The loop keeps the number of floats. -/
theorem size_writeComponent {p x : Value} {axis : Axis} {floats : Buffer}
    (h : forPlaces p.size p.floats (setting.writeComponent p x axis) = .ok floats) :
    floats.size = p.floats.size := by
  refine forPlaces_invariant (fun _ (zs : Buffer) => zs.size = p.floats.size) rfl ?_ h
  intro e _ zs ws hzs hws
  unfold writeComponent at hws
  obtain ⟨reaches, -, hws⟩ := bind_eq_ok.mp hws
  cases reaches with
  | false => exact pure_eq_ok.mp hws ▸ hzs
  | true =>
    simp only [if_true, bind_eq_ok, pure_eq_ok] at hws
    obtain ⟨y, -, _, -, rfl⟩ := hws
    rw [Array.size_setIfInBounds, hzs]

theorem difference_over {direction : Direction} (hvalue : value.Over setting.points)
    (h : setting.difference direction value = .ok out) : out.Over setting.points := by
  obtain ⟨-, floats, hsize, rfl⟩ := change_of_difference h
  exact hvalue.zeros.with_floats (hsize.trans Array.size_replicate.symm)

theorem area_over (hover : Value.AllOver setting.points arguments)
    (h : setting.area arguments = .ok out) : out.Over setting.points := by
  obtain ⟨p, hp, htriple, floats, hfloats, rfl⟩ := areas_of_area h
  have hsize := (hover 0 p hp).size_of_isTriple htriple
  have hzeros : (Value.zeros .float p.storage p.size).Over setting.points := by
    rw [hsize]
    exact Value.zeros_over .float p.storage
  refine hzeros.with_floats (hfloats.trans ?_)
  simp [Value.zeros, ElementType.components]

theorem setComponent_over {axis : Axis} (hover : Value.AllOver setting.points arguments)
    (h : setting.setComponent arguments axis = .ok values) : Value.AllOver setting.points values := by
  obtain ⟨p, x, floats, hp, -, -, -, hfloats, rfl⟩ := setComponent_eq_ok.mp h
  exact hover.set ((hover 0 p hp).with_floats (size_writeComponent hfloats))

theorem fresnel_over (hover : Value.AllOver setting.points arguments)
    (h : setting.fresnel arguments = .ok values) : Value.AllOver setting.points values := by
  obtain ⟨_, _, _, r, t, kr, kt, floats, -, -, -, hr, ht, -, -, hkr, hkt, hfloats, rfl⟩ :=
    fresnel_eq_ok.mp h
  obtain ⟨-, rfl⟩ := writeCoefficients_eq_ok.mp hfloats
  have hkrover : kr.Over setting.points := Value.ensure_over (hover 3 r hr) hkr
  have hktover : kt.Over setting.points := Value.ensure_over (hover 4 t ht) hkt
  exact (hover.set (hkrover.with_floats size_rewriteAt)).set (hktover.with_floats size_rewriteAt)

end Setting

/-- **Builtins.**  A builtin replies with values over the points of the grid. -/
theorem Builtin.run_over {function : Builtin} {setting : Setting} {arguments : Array Value}
    {reply : Reply} (hover : Value.AllOver setting.points arguments)
    (h : function.run setting arguments = .ok reply) : reply.Over setting.points := by
  cases replied_of_run h with
  | floats _ _ hout => exact Setting.floats_over hout
  | triples _ _ hthree hout => exact Setting.triples_over hthree hout
  | derivative _ hvalue hout => exact Setting.difference_over (hover 0 _ hvalue) hout
  | area _ hout => exact Setting.area_over hover hout
  | setComponent _ hvalues => exact Setting.setComponent_over hover hvalues
  | fresnel _ hvalues => exact Setting.fresnel_over hover hvalues

/-! ### Registers -/

/-- Registers that hold values over so many points. -/
structure Registers.Over (points : Nat) (registers : Registers) : Prop where
  symbols : Value.AllOver points registers.symbols
  temporaries : Value.AllOver points registers.temporaries

/-- As many symbols and as many temporaries. -/
structure Registers.SameSizes (before after : Registers) : Prop where
  symbols : after.symbols.size = before.symbols.size
  temporaries : after.temporaries.size = before.temporaries.size

namespace Registers

variable {registers next : Registers} {constants : Array Value} {masks : MaskStack}
  {address : Address} {value : Value} {count : Nat}

theorem Over.read (hover : registers.Over points) (hconstants : Value.AllOver points constants)
    (h : registers.read constants address = .ok value) : value.Over points := by
  cases address with
  | constant n => exact hconstants n value (fetch_eq_ok.mp h)
  | symbol n => exact hover.symbols n value (fetch_eq_ok.mp h)
  | temporary n => exact hover.temporaries n value (fetch_eq_ok.mp h)

theorem Over.target (hover : registers.Over points) (h : registers.target address = .ok value) :
    value.Over points := by
  cases address with
  | constant n => cases h
  | symbol n => exact hover.symbols n value (fetch_eq_ok.mp h)
  | temporary n => exact hover.temporaries n value (fetch_eq_ok.mp h)

theorem Over.claim (hover : registers.Over points) (h : registers.claim address = .ok value) :
    value.Over points := by
  cases address with
  | symbol n =>
    obtain rfl := Except.ok.inj h
    exact Value.over_empty
  | constant n => cases h
  | temporary n => exact hover.temporaries n value (fetch_eq_ok.mp h)

theorem Over.put (hover : registers.Over points) (hvalue : value.Over points)
    (h : registers.put address value = .ok next) : next.Over points := by
  cases address with
  | constant n => exact (put_constant.mp h).elim
  | symbol n =>
    obtain ⟨-, rfl⟩ := put_symbol.mp h
    exact ⟨hover.symbols.set hvalue, hover.temporaries⟩
  | temporary n =>
    obtain ⟨-, rfl⟩ := put_temporary.mp h
    exact ⟨hover.symbols, hover.temporaries.set hvalue⟩

theorem clearTemporaries_eq_ok : registers.clearTemporaries count = .ok next ↔
    48 * max registers.temporaries.size count < 0x8000000000000000 ∧
      next = { registers with
        temporaries := Array.replicate (max registers.temporaries.size count) Value.empty } := by
  unfold clearTemporaries emptyTemporaries
  simp only [bind_eq_ok, requireRoom_eq_ok, pure_eq_ok]
  constructor
  · rintro ⟨_, ⟨_, hroom, rfl⟩, rfl⟩
    exact ⟨hroom, rfl⟩
  · rintro ⟨hroom, rfl⟩
    exact ⟨_, ⟨(), hroom, rfl⟩, rfl⟩

theorem allOver_replicate_empty : Value.AllOver points (Array.replicate count Value.empty) := by
  intro n value hvalue
  obtain ⟨-, rfl⟩ : n < count ∧ Value.empty = value := by
    simpa [Array.getElem?_replicate] using hvalue
  exact Value.over_empty

theorem SameSizes.refl (registers : Registers) : SameSizes registers registers := ⟨rfl, rfl⟩

theorem SameSizes.trans {last : Registers} (h : SameSizes registers next)
    (h' : SameSizes next last) : SameSizes registers last :=
  ⟨h'.symbols.trans h.symbols, h'.temporaries.trans h.temporaries⟩

theorem put_sameSizes (h : registers.put address value = .ok next) : SameSizes registers next := by
  cases address with
  | constant n => exact (put_constant.mp h).elim
  | symbol n =>
    obtain ⟨-, rfl⟩ := put_symbol.mp h
    exact ⟨Array.size_setIfInBounds, rfl⟩
  | temporary n =>
    obtain ⟨-, rfl⟩ := put_temporary.mp h
    exact ⟨rfl, Array.size_setIfInBounds⟩

theorem commit_sameSizes (h : registers.commit masks points address value = .ok next) :
    SameSizes registers next := by
  cases address with
  | constant n => exact (commit_constant.mp h).elim
  | temporary n => exact put_sameSizes (put_temporary.mpr (commit_temporary.mp h))
  | symbol n =>
    obtain ⟨target, taken, -, -, rfl⟩ := commit_symbol_eq_ok.mp h
    exact ⟨Array.size_setIfInBounds, rfl⟩

theorem clearTemporaries_sameSizes (h : registers.clearTemporaries 0 = .ok next) :
    SameSizes registers next := by
  obtain ⟨-, rfl⟩ := clearTemporaries_eq_ok.mp h
  exact ⟨rfl, by simp⟩

/-- What a symbol holds after it took a value. -/
theorem Takes.over {target taken : Value} (htarget : target.Over points) (hvalue : value.Over points)
    (h : Takes masks points target value taken) : taken.Over points := by
  cases h with
  | empty => exact hvalue
  | uniform => exact hvalue
  | varying full mask floats hempty hstorage hcomponents hfull hmask hmerge =>
    exact htarget.with_floats (size_merge hmerge)

theorem Over.commit (hover : registers.Over points) (hvalue : value.Over points)
    (h : registers.commit masks points address value = .ok next) : next.Over points := by
  cases address with
  | constant n => exact (commit_constant.mp h).elim
  | temporary n => exact hover.put hvalue (put_temporary.mpr (commit_temporary.mp h))
  | symbol n =>
    obtain ⟨target, taken, htarget, htakes, rfl⟩ := commit_symbol_eq_ok.mp h
    exact ⟨hover.symbols.set (htakes.over (hover.symbols n target htarget) hvalue),
      hover.temporaries⟩

theorem Over.clearTemporaries (hover : Value.AllOver points registers.symbols)
    (h : registers.clearTemporaries count = .ok next) : next.Over points := by
  obtain ⟨-, rfl⟩ := clearTemporaries_eq_ok.mp h
  exact ⟨hover, allOver_replicate_empty⟩

end Registers

/-! ### Commands -/

namespace Renderer

variable {σ : Type}

/-- A shader that is evaluated leaves as many values as it was shown. -/
def KeepsCount (renderer : Renderer σ) : Prop :=
  ∀ name bindings world,
    (renderer.evaluate name bindings world).1.values.size = bindings.values.size

/-- Evaluating a shader overwrites floats of the values it is shown, and no more. -/
structure OnlyWritesFloats (renderer : Renderer σ) : Prop where
  keepsCount : renderer.KeepsCount
  floats : ∀ name bindings world (slot : Nat) value, bindings.values[slot]? = some value →
    ∃ floats, floats.size = value.floats.size ∧
      (renderer.evaluate name bindings world).1.values[slot]? = some { value with floats := floats }

theorem ofScene_onlyWritesFloats (scene : Scene) : (ofScene scene).OnlyWritesFloats :=
  ⟨fun _ _ _ => rfl, fun _ _ _ _ value hvalue => ⟨value.floats, rfl, hvalue⟩⟩

end Renderer

namespace Machine

variable {σ : Type} {renderer : Renderer σ} {shader : Shader} {constants : Array Value}
  {machine next : Machine σ} {instruction : Instruction} {command : Command} {flow : Flow}

/-- A machine whose masks and registers suit its points, of which there are so many. -/
structure Over (points : Nat) (machine : Machine σ) : Prop where
  points_eq : machine.points = points
  masks : machine.masks.Over points
  registers : machine.registers.Over points

theorem Over.counted (h : machine.Over points) :
    { machine with executed := machine.executed + 1 }.Over points :=
  ⟨h.points_eq, h.masks, h.registers⟩

/-- An argument is what its address holds, or nothing if it was passed before. -/
theorem read_of_argument {function : Builtin} {result address : Address}
    {addresses : List Address} {n : Nat} {value : Value}
    (h : machine.argument constants function result addresses n address = .ok value) :
    value = Value.empty ∨ machine.registers.read constants address = .ok value := by
  unfold argument at h
  split at h
  · exact .inr h
  · split at h
    · exact .inl (Except.ok.inj h).symm
    · exact .inr h

theorem evaluate_eq_ok {symbols : SymbolTable} {name : Address} :
    machine.evaluate constants renderer symbols name = .ok next ↔
      ∃ value text, machine.registers.read constants name = .ok value ∧ value.text = some text ∧
        next = { machine with
          registers := { machine.registers with
            symbols := (renderer.evaluate text ⟨symbols, machine.registers.symbols⟩
              machine.world).1.values }
          world := (renderer.evaluate text ⟨symbols, machine.registers.symbols⟩ machine.world).2 } := by
  unfold evaluate Value.string
  simp only [bind_eq_ok, pure_eq_ok]
  constructor
  · rintro ⟨value, hvalue, text, htext, rfl⟩
    split at htext
    next hsome =>
      obtain rfl := Except.ok.inj htext
      exact ⟨value, _, hvalue, hsome, rfl⟩
    next => cases htext
  · rintro ⟨value, text, hvalue, htext, rfl⟩
    exact ⟨value, hvalue, text, by rw [htext], rfl⟩

/-- No command touches the machine but for masks, registers and the renderer's state. -/
theorem Performed.frame (h : Performed renderer shader instruction machine command flow next) :
    ∃ masks registers world,
      next = { machine with masks := masks, registers := registers, world := world } := by
  cases h with
  | nothing | halt | pass | jump => exact ⟨_, _, _, rfl⟩
  | discard | clearMask | generateMask | invertMask => exact ⟨_, _, _, rfl⟩
  | compute op type result first last _ h =>
    obtain ⟨registers, rfl⟩ := eq_of_compute h
    exact ⟨_, registers, _, rfl⟩
  | assign update target source _ h =>
    obtain ⟨registers, rfl⟩ := eq_of_assign h
    exact ⟨_, registers, _, rfl⟩
  | call function result addresses _ h =>
    obtain ⟨registers, rfl⟩ := eq_of_call h
    exact ⟨_, registers, _, rfl⟩
  | evaluate name _ h =>
    obtain ⟨_, _, -, -, rfl⟩ := evaluate_eq_ok.mp h
    exact ⟨_, _, _, rfl⟩

theorem restore_sameSizes {function : Builtin} {result : Address} {addresses : List Address}
    {values : Array Value} {registers : Registers}
    (h : machine.restore function result addresses values = .ok registers) :
    machine.registers.SameSizes registers := by
  refine foldlM_invariant (Registers.SameSizes machine.registers) (.refl _) ?_ h
  rintro registers ⟨address, n⟩ next - hregisters hput
  dsimp only at hput
  split at hput
  next =>
    obtain rfl := pure_eq_ok.mp hput
    exact hregisters
  next =>
    obtain ⟨value, -, hput⟩ := bind_eq_ok.mp hput
    exact hregisters.trans (Registers.put_sameSizes hput)

/-- There are as many registers after a command as before, unless the renderer was asked. -/
theorem Performed.sameSizes_of_ne (hcommand : ∀ name, command ≠ .evaluate name)
    (h : Performed renderer shader instruction machine command flow next) :
    machine.registers.SameSizes next.registers := by
  cases h with
  | nothing | halt | clearMask | generateMask | invertMask | pass | jump => exact .refl _
  | discard registers h => exact Registers.clearTemporaries_sameSizes h
  | compute op type result first last _ h =>
    obtain ⟨_, _, _, _, _, registers, -, -, -, -, -, -, -, hcommit, rfl⟩ := compute_eq_ok.mp h
    exact Registers.commit_sameSizes hcommit
  | assign update target source _ h =>
    obtain ⟨_, _, _, _, _, registers, -, -, -, -, -, -, -, -, hput, rfl⟩ := assign_eq_ok.mp h
    exact Registers.put_sameSizes hput
  | call function result addresses _ h =>
    obtain ⟨_, _, reply, registers, -, -, -, -, hreplied, rfl⟩ := call_eq_ok.mp h
    cases reply with
    | result value => exact Registers.commit_sameSizes hreplied
    | arguments values => exact restore_sameSizes hreplied
  | evaluate name => exact absurd rfl (hcommand name)

/-- **Sizes.**  There are as many registers after a command as before. -/
theorem Performed.sameSizes (hrenderer : renderer.KeepsCount)
    (h : Performed renderer shader instruction machine command flow next) :
    machine.registers.SameSizes next.registers := by
  cases command with
  | evaluate name =>
    cases h with
    | evaluate _ _ h =>
      obtain ⟨_, _, -, -, rfl⟩ := evaluate_eq_ok.mp h
      exact ⟨hrenderer _ _ _, rfl⟩
  | _ => exact h.sameSizes_of_ne (by simp)

/-- There are as many temporaries after a command as before, whatever the renderer does. -/
theorem Performed.size_temporaries
    (h : Performed renderer shader instruction machine command flow next) :
    next.registers.temporaries.size = machine.registers.temporaries.size := by
  cases command with
  | evaluate name =>
    cases h with
    | evaluate _ _ h =>
      obtain ⟨_, _, -, -, rfl⟩ := evaluate_eq_ok.mp h
      rfl
  | _ => exact (h.sameSizes_of_ne (by simp)).temporaries

theorem Over.compute {op : PointOp} {type : Option ElementType} {result first last : Address}
    (hover : machine.Over points)
    (h : machine.compute constants instruction op type result first last = .ok next) :
    next.Over points := by
  obtain ⟨destination, a, b, fitted, floats, registers, -, hclaim, -, -, -, hfitted, hfloats, hcommit,
    rfl⟩ := compute_eq_ok.mp h
  rw [hover.points_eq] at hfitted hcommit
  have hfittedover := Value.ensure_over (hover.registers.claim hclaim) hfitted
  have hvalue : { fitted with floats := floats }.Over points :=
    hfittedover.with_floats (fill_eq_ok.mp (PointOp.run_eq_ok.mp hfloats).2).2.1
  exact ⟨hover.points_eq, hover.masks, hover.registers.commit hvalue hcommit⟩

theorem shaped_over {update : Update} {target : Address} {destination value written : Value}
    (hdestination : destination.Over points)
    (h : shaped points update target destination value = .ok written) : written.Over points := by
  unfold shaped at h
  split at h
  · exact Value.allocate_over h
  · exact Except.ok.inj h ▸ hdestination

theorem Over.assign {update : Update} {target source : Address} (hover : machine.Over points)
    (h : machine.assign constants instruction update target source = .ok next) :
    next.Over points := by
  obtain ⟨destination, value, written, mask, floats, registers, -, htarget, -, -, hwritten, -, -,
    hfloats, hput, rfl⟩ := assign_eq_ok.mp h
  rw [hover.points_eq] at hwritten
  have hwrittenover := shaped_over (hover.registers.target htarget) hwritten
  obtain ⟨-, rfl⟩ := Update.run_eq_ok.mp hfloats
  exact ⟨hover.points_eq, hover.masks,
    hover.registers.put (hwrittenover.with_floats size_rewriteAt) hput⟩

theorem restore_over {function : Builtin} {result : Address} {addresses : List Address}
    {values : Array Value} {registers : Registers} (hover : machine.registers.Over points)
    (hvalues : Value.AllOver points values)
    (h : machine.restore function result addresses values = .ok registers) :
    registers.Over points := by
  refine foldlM_invariant (Registers.Over points) hover ?_ h
  rintro registers ⟨address, n⟩ next - hregisters hput
  dsimp only at hput
  split at hput
  next =>
    obtain rfl := pure_eq_ok.mp hput
    exact hregisters
  next =>
    obtain ⟨value, hvalue, hput⟩ := bind_eq_ok.mp hput
    exact hregisters.put (hvalues n value (fetch_eq_ok.mp hvalue)) hput

/-- An argument of a call is what its address holds, or nothing. -/
theorem exists_of_argument {function : Builtin} {result : Address} {addresses : List Address}
    {arguments : List Value} {n : Nat} {value : Value}
    (h : addresses.zipIdx.mapM (fun (address, n) =>
      machine.argument constants function result addresses n address) = .ok arguments)
    (hvalue : arguments.toArray[n]? = some value) :
    ∃ address, addresses[n]? = some address ∧
      (value = Value.empty ∨ machine.registers.read constants address = .ok value) := by
  obtain ⟨hlength, hall⟩ := mapM_eq_ok.mp h
  rw [List.getElem?_toArray] at hvalue
  have hlt : n < addresses.length := by
    have hn := (List.getElem?_eq_some_iff.mp hvalue).1
    rw [List.length_zipIdx] at hlength
    omega
  have haddress := List.getElem?_eq_getElem hlt
  obtain ⟨value', hvalue', hargument⟩ := hall n (addresses[n], n) (by simp [haddress])
  obtain rfl : value = value' := Option.some.inj (hvalue.symm.trans hvalue')
  exact ⟨_, haddress, read_of_argument hargument⟩

/-- The arguments of a call are values over the points. -/
theorem arguments_over {function : Builtin} {result : Address} {addresses : List Address}
    {arguments : List Value} (hover : machine.registers.Over points)
    (hconstants : Value.AllOver points constants)
    (h : addresses.zipIdx.mapM (fun (address, n) =>
      machine.argument constants function result addresses n address) = .ok arguments) :
    Value.AllOver points arguments.toArray := by
  intro n value hvalue
  obtain ⟨address, -, rfl | hread⟩ := exists_of_argument h hvalue
  · exact Value.over_empty
  · exact hover.read hconstants hread

theorem Over.call {scene : Scene} {function : Builtin} {result : Address} {addresses : List Address}
    (hover : machine.Over points) (hconstants : Value.AllOver points constants)
    (h : machine.call constants scene function result addresses = .ok next) : next.Over points := by
  obtain ⟨arguments, mask, reply, registers, harguments, -, -, hrun, hreplied, rfl⟩ :=
    call_eq_ok.mp h
  have hpoints : (Setting.mk scene machine.width machine.height mask).points = points :=
    hover.points_eq
  have harguments := arguments_over hover.registers hconstants harguments
  rw [← hpoints] at harguments
  have hreply := Builtin.run_over harguments hrun
  rw [hpoints] at hreply
  refine ⟨hover.points_eq, hover.masks, ?_⟩
  cases reply with
  | result value =>
    rw [replied, hover.points_eq] at hreplied
    exact hover.registers.commit hreply hreplied
  | arguments values => exact restore_over hover.registers hreply hreplied

theorem Over.evaluate {symbols : SymbolTable} {name : Address}
    (hrenderer : renderer.OnlyWritesFloats) (hover : machine.Over points)
    (h : machine.evaluate constants renderer symbols name = .ok next) : next.Over points := by
  obtain ⟨_, text, -, -, rfl⟩ := evaluate_eq_ok.mp h
  refine ⟨hover.points_eq, hover.masks, ⟨fun slot value hvalue => ?_, hover.registers.temporaries⟩⟩
  have hlt : slot < machine.registers.symbols.size := by
    have hcount := hrenderer.keepsCount text ⟨symbols, machine.registers.symbols⟩ machine.world
    have hslot := (Array.getElem?_eq_some_iff.mp hvalue).1
    exact hcount ▸ hslot
  have hold := Array.getElem?_eq_getElem hlt
  obtain ⟨floats, hsize, hfloats⟩ := hrenderer.floats text ⟨symbols, machine.registers.symbols⟩
    machine.world slot _ hold
  obtain rfl := Option.some.inj (hfloats.symm.trans hvalue)
  exact (hover.registers.symbols slot _ hold).with_floats hsize

/-- Registers and masks suit the points of the grid after a command if they did before, unless the
    renderer was asked. -/
theorem Performed.over_of_ne (hcommand : ∀ name, command ≠ .evaluate name)
    (hconstants : Value.AllOver points shader.constants) (hover : machine.Over points)
    (h : Performed renderer shader instruction machine command flow next) : next.Over points := by
  cases h with
  | nothing | halt | pass | jump => exact hover
  | discard registers h =>
    exact ⟨hover.points_eq, hover.masks, .clearTemporaries hover.registers.symbols h⟩
  | clearMask masks h => exact ⟨hover.points_eq, hover.masks.clear h, hover.registers⟩
  | generateMask predicate value masks hvalue h =>
    exact ⟨hover.points_eq, hover.masks.generate h, hover.registers⟩
  | invertMask masks h => exact ⟨hover.points_eq, hover.masks.invert h, hover.registers⟩
  | compute op type result first last _ h => exact hover.compute h
  | assign update target source _ h => exact hover.assign h
  | call function result addresses _ h => exact hover.call hconstants h
  | evaluate name => exact absurd rfl (hcommand name)

/-- **Shapes.**  Registers and masks suit the points of the grid after a command if they did
    before. -/
theorem Performed.over (hrenderer : renderer.OnlyWritesFloats)
    (hconstants : Value.AllOver points shader.constants) (hover : machine.Over points)
    (h : Performed renderer shader instruction machine command flow next) : next.Over points := by
  cases command with
  | evaluate name =>
    cases h with
    | evaluate _ _ h => exact hover.evaluate hrenderer h
  | _ => exact h.over_of_ne (by simp) hconstants hover

/-- An instruction that does not ask the renderer. -/
theorem Over.step {word : Word} (hover : machine.Over points)
    (hconstants : Value.AllOver points shader.constants)
    (hword : shader.code[machine.ip]? = some word)
    (hcommand : ∀ name, ¬ shader.CommandAt machine.ip (.evaluate name))
    (h : machine.step renderer shader word = .ok (flow, next)) : next.Over points := by
  obtain ⟨instruction, command, last, hinstruction, hdecode, hperform, hmoved⟩ := step_eq_ok.mp h
  have hlast : last.Over points := by
    refine (perform_eq_ok.mp hperform).over_of_ne ?_ hconstants hover.counted
    rintro name rfl
    exact hcommand name ⟨word, instruction, hword, hinstruction, hdecode⟩
  obtain ⟨offset, rfl⟩ := eq_of_moved hmoved
  exact ⟨hlast.points_eq, hlast.masks, hlast.registers⟩

end Machine

end Shading
