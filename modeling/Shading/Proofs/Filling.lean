import Shading.Proofs.Elements
import Shading.Proofs.Upkeep

namespace Shading

/-!
# Registers with all their floats

Whatever a command does, and whatever the sizes of the values it is given, it leaves every register
with a float for each component of each element.  So does a run of any shader whose constants are so,
as long as the renderer does no more than overwrite floats.

* `Value.AllFilled`, `Registers.IsFilled` — values and registers with all their floats;
* `Value.IsNumeric` — values that are no strings, which all results are;
* `Builtin.run_filled` — the replies of builtins;
* `Machine.Performed.filled` — all commands;
* `Machine.run_filled` — runs.
-/

/-! ### Builtins -/

/-- Values all of which have all their floats. -/
def Value.AllFilled (values : Array Value) : Prop :=
  ∀ (n : Nat) (value : Value), values[n]? = some value → value.IsFilled

theorem Value.AllFilled.set {values : Array Value} {n : Nat} {value : Value} (h : AllFilled values)
    (hvalue : value.IsFilled) : AllFilled (values.setIfInBounds n value) := by
  intro k other hother
  rw [Array.getElem?_setIfInBounds] at hother
  split at hother
  · split at hother
    · exact Option.some.inj hother ▸ hvalue
    · cases hother
  · exact h k other hother

theorem Value.allFilled_replicate_empty {count : Nat} :
    AllFilled (Array.replicate count Value.empty) := by
  intro n value hvalue
  obtain ⟨-, rfl⟩ : n < count ∧ Value.empty = value := by
    simpa [Array.getElem?_replicate] using hvalue
  rfl

/-- Floats, triples or matrices, all of whose floats are there. -/
structure Value.IsNumeric (value : Value) : Prop where
  isFilled : value.IsFilled
  type_ne : value.type ≠ .string

/-- A result is made of numbers, and what is left of arguments has all its floats. -/
def Reply.IsFilled : Reply → Prop
  | .result value => value.IsNumeric
  | .arguments values => Value.AllFilled values

theorem ElementType.ne_string_of_components {type : ElementType} (h : 0 < type.components) :
    type ≠ .string := by
  rintro rfl
  cases h

namespace Setting

variable {setting : Setting} {storage : Storage} {arguments values : Array Value} {value out : Value}

theorem floats_numeric {f : Nat → Except Fault Float32} (h : setting.floats storage f = .ok out) :
    out.IsNumeric := by
  obtain ⟨-, xs, hxs, rfl⟩ := floats_eq_ok.mp h
  exact ⟨(tabulate_eq_ok.mp hxs).1.trans (Nat.one_mul _).symm, by simp⟩

theorem triples_numeric {type : ElementType} {f : Nat → Except Fault Vec3}
    (htype : type.components = 3) (h : setting.triples type storage f = .ok out) :
    out.IsNumeric := by
  obtain ⟨-, xs, hxs, rfl⟩ := triples_eq_ok.mp h
  refine ⟨?_, ElementType.ne_string_of_components (Nat.lt_of_lt_of_eq (by decide) htype.symm)⟩
  rw [Value.IsFilled, Value.components, htype, size_flatMap_triples, (tabulate_eq_ok.mp hxs).1]

theorem difference_numeric {direction : Direction}
    (h : setting.difference direction value = .ok out) : out.IsNumeric := by
  obtain ⟨htype, floats, hsize, rfl⟩ := change_of_difference h
  refine ⟨hsize, ?_⟩
  rintro (hstring : value.type = .string)
  simp [hstring, ElementType.isTriple, ElementType.components] at htype

theorem area_numeric (h : setting.area arguments = .ok out) : out.IsNumeric := by
  obtain ⟨p, -, -, floats, hsize, rfl⟩ := areas_of_area h
  exact ⟨hsize.trans (Nat.one_mul _).symm, by simp [Value.zeros]⟩

theorem setComponent_filled {axis : Axis} (hfilled : Value.AllFilled arguments)
    (h : setting.setComponent arguments axis = .ok values) : Value.AllFilled values := by
  obtain ⟨p, x, floats, hp, -, -, -, hfloats, rfl⟩ := setComponent_eq_ok.mp h
  exact hfilled.set ((hfilled 0 p hp).with_floats (size_writeComponent hfloats))

theorem fresnel_filled (hfilled : Value.AllFilled arguments)
    (h : setting.fresnel arguments = .ok values) : Value.AllFilled values := by
  obtain ⟨_, _, _, r, t, kr, kt, floats, -, -, -, hr, ht, -, -, hkr, hkt, hfloats, rfl⟩ :=
    fresnel_eq_ok.mp h
  obtain ⟨-, rfl⟩ := writeCoefficients_eq_ok.mp hfloats
  have hkrfilled : kr.IsFilled := Value.ensure_isFilled (hfilled 3 r hr) hkr
  have hktfilled : kt.IsFilled := Value.ensure_isFilled (hfilled 4 t ht) hkt
  exact (hfilled.set (hkrfilled.with_floats size_rewriteAt)).set
    (hktfilled.with_floats size_rewriteAt)

end Setting

/-- **Builtins.**  A builtin replies with numbers, or with arguments that have all their floats. -/
theorem Builtin.run_filled {function : Builtin} {setting : Setting} {arguments : Array Value}
    {reply : Reply} (hfilled : Value.AllFilled arguments)
    (h : function.run setting arguments = .ok reply) : reply.IsFilled := by
  cases replied_of_run h with
  | floats _ _ hout => exact Setting.floats_numeric hout
  | triples _ _ hthree hout => exact Setting.triples_numeric hthree hout
  | derivative _ _ hout => exact Setting.difference_numeric hout
  | area _ hout => exact Setting.area_numeric hout
  | setComponent _ hvalues => exact Setting.setComponent_filled hfilled hvalues
  | fresnel _ hvalues => exact Setting.fresnel_filled hfilled hvalues

/-! ### Registers -/

/-- Registers that hold values with all their floats. -/
structure Registers.IsFilled (registers : Registers) : Prop where
  symbols : Value.AllFilled registers.symbols
  temporaries : Value.AllFilled registers.temporaries

namespace Registers

variable {registers next : Registers} {constants : Array Value} {masks : MaskStack}
  {address : Address} {value : Value} {points count : Nat}

theorem IsFilled.read (hfilled : registers.IsFilled) (hconstants : Value.AllFilled constants)
    (h : registers.read constants address = .ok value) : value.IsFilled := by
  cases address with
  | constant n => exact hconstants n value (fetch_eq_ok.mp h)
  | symbol n => exact hfilled.symbols n value (fetch_eq_ok.mp h)
  | temporary n => exact hfilled.temporaries n value (fetch_eq_ok.mp h)

theorem IsFilled.target (hfilled : registers.IsFilled) (h : registers.target address = .ok value) :
    value.IsFilled := by
  cases address with
  | constant n => cases h
  | symbol n => exact hfilled.symbols n value (fetch_eq_ok.mp h)
  | temporary n => exact hfilled.temporaries n value (fetch_eq_ok.mp h)

theorem IsFilled.claim (hfilled : registers.IsFilled) (h : registers.claim address = .ok value) :
    value.IsFilled := by
  cases address with
  | constant n => cases h
  | symbol n =>
    obtain rfl := Except.ok.inj h
    rfl
  | temporary n => exact hfilled.temporaries n value (fetch_eq_ok.mp h)

theorem IsFilled.put (hfilled : registers.IsFilled) (hvalue : value.IsFilled)
    (h : registers.put address value = .ok next) : next.IsFilled := by
  cases address with
  | constant n => exact (put_constant.mp h).elim
  | symbol n =>
    obtain ⟨-, rfl⟩ := put_symbol.mp h
    exact ⟨hfilled.symbols.set hvalue, hfilled.temporaries⟩
  | temporary n =>
    obtain ⟨-, rfl⟩ := put_temporary.mp h
    exact ⟨hfilled.symbols, hfilled.temporaries.set hvalue⟩

/-- What a symbol holds after it took a value. -/
theorem Takes.filled {target taken : Value} (htarget : target.IsFilled) (hvalue : value.IsFilled)
    (h : Takes masks points target value taken) : taken.IsFilled := by
  cases h with
  | empty => exact hvalue
  | uniform => exact hvalue
  | varying full mask floats hempty hstorage hcomponents hfull hmask hmerge =>
    exact htarget.with_floats (size_merge hmerge)

theorem IsFilled.commit (hfilled : registers.IsFilled) (hvalue : value.IsFilled)
    (h : registers.commit masks points address value = .ok next) : next.IsFilled := by
  cases address with
  | constant n => exact (commit_constant.mp h).elim
  | temporary n => exact hfilled.put hvalue (put_temporary.mpr (commit_temporary.mp h))
  | symbol n =>
    obtain ⟨target, taken, htarget, htakes, rfl⟩ := commit_symbol_eq_ok.mp h
    exact ⟨hfilled.symbols.set (htakes.filled (hfilled.symbols n target htarget) hvalue),
      hfilled.temporaries⟩

theorem IsFilled.clearTemporaries (hfilled : Value.AllFilled registers.symbols)
    (h : registers.clearTemporaries count = .ok next) : next.IsFilled := by
  obtain ⟨-, rfl⟩ := clearTemporaries_eq_ok.mp h
  exact ⟨hfilled, Value.allFilled_replicate_empty⟩

end Registers

/-! ### Commands -/

namespace Machine

variable {σ : Type} {renderer : Renderer σ} {shader : Shader} {constants : Array Value}
  {machine next : Machine σ} {instruction : Instruction} {command : Command} {flow : Flow}

theorem compute_filled {op : PointOp} {type : Option ElementType} {result first last : Address}
    (hfilled : machine.registers.IsFilled)
    (h : machine.compute constants instruction op type result first last = .ok next) :
    next.registers.IsFilled := by
  obtain ⟨destination, a, b, fitted, floats, registers, -, hclaim, -, -, -, hfitted, hfloats, hcommit,
    rfl⟩ := compute_eq_ok.mp h
  have hfittedfilled := Value.ensure_isFilled (hfilled.claim hclaim) hfitted
  have hvalue : { fitted with floats := floats }.IsFilled :=
    hfittedfilled.with_floats (fill_eq_ok.mp (PointOp.run_eq_ok.mp hfloats).2).2.1
  exact hfilled.commit hvalue hcommit

theorem assign_filled {update : Update} {target source : Address}
    (hfilled : machine.registers.IsFilled)
    (h : machine.assign constants instruction update target source = .ok next) :
    next.registers.IsFilled := by
  obtain ⟨destination, value, written, mask, floats, registers, -, htarget, -, -, hwritten, -, -,
    hfloats, hput, rfl⟩ := assign_eq_ok.mp h
  have hwrittenfilled : written.IsFilled := by
    unfold shaped at hwritten
    split at hwritten
    · exact Value.allocate_isFilled hwritten
    · exact Except.ok.inj hwritten ▸ hfilled.target htarget
  obtain ⟨-, rfl⟩ := Update.run_eq_ok.mp hfloats
  exact hfilled.put (hwrittenfilled.with_floats size_rewriteAt) hput

theorem restore_filled {function : Builtin} {result : Address} {addresses : List Address}
    {values : Array Value} {registers : Registers} (hfilled : machine.registers.IsFilled)
    (hvalues : Value.AllFilled values)
    (h : machine.restore function result addresses values = .ok registers) : registers.IsFilled := by
  refine foldlM_invariant Registers.IsFilled hfilled ?_ h
  rintro registers ⟨address, n⟩ next - hregisters hput
  dsimp only at hput
  split at hput
  next =>
    obtain rfl := pure_eq_ok.mp hput
    exact hregisters
  next =>
    obtain ⟨value, hvalue, hput⟩ := bind_eq_ok.mp hput
    exact hregisters.put (hvalues n value (fetch_eq_ok.mp hvalue)) hput

theorem arguments_filled {function : Builtin} {result : Address} {addresses : List Address}
    {arguments : List Value} (hfilled : machine.registers.IsFilled)
    (hconstants : Value.AllFilled constants)
    (h : addresses.zipIdx.mapM (fun (address, n) =>
      machine.argument constants function result addresses n address) = .ok arguments) :
    Value.AllFilled arguments.toArray := by
  intro n value hvalue
  obtain ⟨address, -, rfl | hread⟩ := exists_of_argument h hvalue
  · rfl
  · exact hfilled.read hconstants hread

theorem call_filled {scene : Scene} {function : Builtin} {result : Address}
    {addresses : List Address} (hfilled : machine.registers.IsFilled)
    (hconstants : Value.AllFilled constants)
    (h : machine.call constants scene function result addresses = .ok next) :
    next.registers.IsFilled := by
  obtain ⟨arguments, mask, reply, registers, harguments, -, -, hrun, hreplied, rfl⟩ :=
    call_eq_ok.mp h
  have hreply := Builtin.run_filled (arguments_filled hfilled hconstants harguments) hrun
  cases reply with
  | result value => exact hfilled.commit hreply.isFilled hreplied
  | arguments values => exact restore_filled hfilled hreply hreplied

theorem evaluate_filled {symbols : SymbolTable} {name : Address}
    (hrenderer : renderer.OnlyWritesFloats) (hfilled : machine.registers.IsFilled)
    (h : machine.evaluate constants renderer symbols name = .ok next) : next.registers.IsFilled := by
  obtain ⟨_, text, -, -, rfl⟩ := evaluate_eq_ok.mp h
  refine ⟨fun slot value hvalue => ?_, hfilled.temporaries⟩
  have hlt : slot < machine.registers.symbols.size := by
    have hcount := hrenderer.keepsCount text ⟨symbols, machine.registers.symbols⟩ machine.world
    have hslot := (Array.getElem?_eq_some_iff.mp hvalue).1
    exact hcount ▸ hslot
  have hold := Array.getElem?_eq_getElem hlt
  obtain ⟨floats, hsize, hfloats⟩ := hrenderer.floats text ⟨symbols, machine.registers.symbols⟩
    machine.world slot _ hold
  obtain rfl := Option.some.inj (hfloats.symm.trans hvalue)
  exact (hfilled.symbols slot _ hold).with_floats hsize

/-- **Commands.**  Registers have all their floats after a command if they had before. -/
theorem Performed.filled (h : Performed renderer shader instruction machine command flow next)
    (hrenderer : renderer.OnlyWritesFloats) (hconstants : Value.AllFilled shader.constants)
    (hfilled : machine.registers.IsFilled) : next.registers.IsFilled := by
  cases h with
  | nothing | halt | pass | jump => exact hfilled
  | clearMask | generateMask | invertMask => exact hfilled
  | discard registers h => exact .clearTemporaries hfilled.symbols h
  | compute op type result first last _ h => exact compute_filled hfilled h
  | assign update target source _ h => exact assign_filled hfilled h
  | call function result addresses _ h => exact call_filled hfilled hconstants h
  | evaluate name _ h => exact evaluate_filled hrenderer hfilled h

/-- **Runs.**  Registers have all their floats after a run if they had before. -/
theorem run_filled (hrenderer : renderer.OnlyWritesFloats)
    (hconstants : Value.AllFilled shader.constants) (hfilled : machine.registers.IsFilled)
    (turns : Nat) : (run renderer shader turns machine).2.registers.IsFilled := by
  refine run_invariant (fun machine => machine.registers.IsFilled) ?_ turns hfilled
  intro machine next word flow hmachine _ hstep
  obtain ⟨_, _, last, -, -, hperform, hmoved⟩ := step_eq_ok.mp hstep
  have hlast := (perform_eq_ok.mp hperform).filled hrenderer hconstants hmachine
  obtain ⟨offset, rfl⟩ := eq_of_moved hmoved
  exact hlast

end Machine

end Shading
