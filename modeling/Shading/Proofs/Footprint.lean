import Shading.Proofs.Shelter

namespace Shading

/-!
# The registers that a command writes

A command leaves every register alone but the few that it writes.  Of a varying symbol it changes the
floats only.

* `Command.writes`, `Command.mentions` — the addresses in question;
* `Registers.Rewritten` — registers that differ in the written places only;
* `Machine.Admits` — the symbols that a command writes are varying;
* `Machine.Performed.rewritten` — what a command leaves alone.
-/

/-! ### Addresses of a command -/

namespace Command

/-- The registers that the command writes. -/
def writes : Command → List Address
  | .compute _ _ result _ _ => [result]
  | .assign _ target _ => [target]
  | .call (.setComponent _) _ arguments => arguments.take 1
  | .call .fresnel _ arguments => arguments.drop 3
  | .call _ result _ => [result]
  | _ => []

/-- All that the command mentions. -/
def mentions : Command → List Address
  | .generateMask predicate => [predicate]
  | .compute _ _ result first last => [result, first, last]
  | .assign _ target source => [target, source]
  | .call _ result arguments => result :: arguments
  | .evaluate name => [name]
  | _ => []

/-- The command leads on to the next one, and writes no register but those it names. -/
def isStraight : Command → Bool
  | .halt | .discard | .jump _ _ | .evaluate _ => false
  | _ => true

end Command

/-! ### Registers -/

namespace Registers

variable {registers next last : Registers} {address : Address} {value : Value}
  {written : Address → Prop}

/-- What an address holds after a value is put somewhere. -/
theorem read_put {constants : Array Value} (h : registers.put address value = .ok next)
    (other : Address) : next.read constants other =
      if other = address then .ok value else registers.read constants other := by
  cases address with
  | constant n => exact (put_constant.mp h).elim
  | symbol n =>
    obtain ⟨hlt, rfl⟩ := put_symbol.mp h
    cases other with
    | symbol m =>
      by_cases hm : m = n
      · subst hm
        simp [read, hlt]
      · rw [if_neg (by simpa using hm)]
        exact fetch_congr (Array.getElem?_setIfInBounds_ne (Ne.symm hm))
    | _ => simp [read]
  | temporary n =>
    obtain ⟨hlt, rfl⟩ := put_temporary.mp h
    cases other with
    | temporary m =>
      by_cases hm : m = n
      · subst hm
        simp [read, hlt]
      · rw [if_neg (by simpa using hm)]
        exact fetch_congr (Array.getElem?_setIfInBounds_ne (Ne.symm hm))
    | _ => simp [read]

/-- Registers that hold the same before and after, but for those written, and whose symbols differ in
    their floats at most. -/
structure Rewritten (written : Address → Prop) (before after : Registers) : Prop where
  frame : ∀ constants address, ¬ written address →
    after.read constants address = before.read constants address
  symbols : ∀ (slot : Nat) value, before.symbols[slot]? = some value →
    ∃ floats, after.symbols[slot]? = some { value with floats := floats }

namespace Rewritten

theorem refl (registers : Registers) : Rewritten written registers registers :=
  ⟨fun _ _ _ => rfl, fun _ value h => ⟨value.floats, h⟩⟩

theorem trans {written' : Address → Prop} (h : Rewritten written registers next)
    (h' : Rewritten written' next last) :
    Rewritten (fun address => written address ∨ written' address) registers last := by
  refine ⟨fun constants address hwritten => ?_, fun slot value hvalue => ?_⟩
  · rw [not_or] at hwritten
    rw [h'.frame constants address hwritten.2, h.frame constants address hwritten.1]
  · obtain ⟨floats, hfloats⟩ := h.symbols slot value hvalue
    obtain ⟨floats', hfloats'⟩ := h'.symbols slot _ hfloats
    exact ⟨floats', hfloats'⟩

theorem mono {written' : Address → Prop} (h : Rewritten written registers next)
    (hall : ∀ address, written address → written' address) :
    Rewritten written' registers next :=
  ⟨fun constants address hnot => h.frame constants address fun hw => hnot (hall address hw), h.symbols⟩

/-- Putting a value back, or a value with other floats where it may be written. -/
theorem put (h : Rewritten written registers next) (hput : next.put address value = .ok last)
    (hvalue : registers.target address = .ok value ∨ written address ∧
      ∀ slot old, address = .symbol slot → registers.symbols[slot]? = some old →
        ∃ floats, value = { old with floats := floats }) :
    Rewritten written registers last := by
  have hread : ∀ constants, registers.target address = .ok value →
      registers.read constants address = .ok value := by
    intro constants htarget
    cases address with
    | constant n => cases htarget
    | symbol n => exact htarget
    | temporary n => exact htarget
  refine ⟨fun constants other hother => ?_, fun slot old hold => ?_⟩
  · rw [read_put hput]
    split
    next hsame =>
      subst hsame
      obtain htarget | ⟨hwritten, -⟩ := hvalue
      · rw [hread constants htarget]
      · exact absurd hwritten hother
    next => exact h.frame constants other hother
  · by_cases hsame : address = .symbol slot
    · subst hsame
      obtain ⟨hlt, rfl⟩ := put_symbol.mp hput
      have hset : (next.symbols.setIfInBounds slot value)[slot]? = some value := by
        simp [hlt]
      obtain htarget | ⟨-, hfloats⟩ := hvalue
      · rw [target, fetch_eq_ok, hold] at htarget
        exact ⟨old.floats, by rw [hset, ← htarget]⟩
      · obtain ⟨floats, rfl⟩ := hfloats slot old rfl hold
        exact ⟨floats, hset⟩
    · obtain ⟨floats, hfloats⟩ := h.symbols slot old hold
      have hread := @read_put _ _ _ _ #[] hput (.symbol slot)
      rw [if_neg (Ne.symm hsame), read, read, fetch_eq, fetch_eq, hfloats] at hread
      refine ⟨floats, fetch_eq_ok.mp ?_⟩
      rw [fetch_eq]
      exact hread

end Rewritten

/-- A varying symbol that holds something takes floats only. -/
theorem Takes.eq_with_floats {masks : MaskStack} {points : Nat} {target taken : Value}
    (hempty : target.isEmpty = false) (hstorage : target.storage = .varying)
    (h : Takes masks points target value taken) : ∃ floats, taken = { target with floats := floats } := by
  cases h with
  | empty h => simp [hempty] at h
  | uniform _ h => simp [hstorage] at h
  | varying _ _ floats => exact ⟨floats, rfl⟩

theorem commit_rewritten {masks : MaskStack} {points : Nat}
    (hvarying : ∀ slot, address = .symbol slot → ∃ value, registers.symbols[slot]? = some value ∧
      value.isEmpty = false ∧ value.storage = .varying)
    (h : registers.commit masks points address value = .ok next) :
    Rewritten (· = address) registers next := by
  cases address with
  | constant n => exact (commit_constant.mp h).elim
  | temporary n =>
    exact (Rewritten.refl registers).put (put_temporary.mpr (commit_temporary.mp h))
      (.inr ⟨rfl, nofun⟩)
  | symbol n =>
    obtain ⟨target, taken, htarget, htakes, rfl⟩ := commit_symbol_eq_ok.mp h
    obtain ⟨value', hvalue', hempty, hstorage⟩ := hvarying n rfl
    obtain rfl := Option.some.inj (hvalue'.symm.trans htarget)
    have hlt := (Array.getElem?_eq_some_iff.mp htarget).1
    refine (Rewritten.refl registers).put (put_symbol.mpr ⟨hlt, rfl⟩) (.inr ⟨rfl, ?_⟩)
    intro slot old hslot hold
    obtain rfl : n = slot := by simpa using hslot
    obtain rfl := Option.some.inj (htarget.symm.trans hold)
    exact htakes.eq_with_floats hempty hstorage

end Registers

/-! ### Commands -/

namespace Machine

variable {σ : Type} {renderer : Renderer σ} {shader : Shader} {constants : Array Value}
  {machine next : Machine σ} {instruction : Instruction} {command : Command} {flow : Flow}

/-- The symbols that the command writes are varying, over the points of the machine, and the outputs
    of `fresnel` among them are floats. -/
def Admits (machine : Machine σ) (command : Command) : Prop :=
  ∀ slot, .symbol slot ∈ command.writes → ∃ value, machine.registers.symbols[slot]? = some value ∧
    value.storage = .varying ∧ value.size = machine.points ∧
    ∀ result arguments, command = .call .fresnel result arguments → value.type = .float

/-- Only the floats of its symbols change, so a machine goes on admitting what it admitted. -/
theorem Admits.of_rewritten {written : Address → Prop} (h : machine.Admits command)
    (hpoints : next.points = machine.points)
    (hrewritten : Registers.Rewritten written machine.registers next.registers) :
    next.Admits command := by
  intro slot hslot
  obtain ⟨value, hvalue, hstorage, hsize, htype⟩ := h slot hslot
  obtain ⟨floats, hfloats⟩ := hrewritten.symbols slot value hvalue
  exact ⟨_, hfloats, hstorage, hsize.trans hpoints.symm, htype⟩

/-- The outputs of `fresnel` that are admitted fit. -/
theorem Admits.outputsFit {function : Builtin} {result : Address} {addresses : List Address}
    (h : machine.Admits (.call function result addresses)) :
    machine.OutputsFit function addresses := by
  rintro rfl n slot hn haddress
  have hmem : .symbol slot ∈ addresses.drop 3 := by
    rw [List.mem_iff_getElem?]
    refine ⟨n - 3, ?_⟩
    rw [List.getElem?_drop, ← haddress]
    congr 1
    omega
  obtain ⟨value, hvalue, hstorage, hsize, htype⟩ := h slot hmem
  exact ⟨value, hvalue, Value.fits_iff.mpr ⟨htype _ _ rfl, hstorage, hsize⟩⟩

theorem Admits.isEmpty_eq {slot : Nat} (h : machine.Admits command) (hpoints : 0 < machine.points)
    (hslot : .symbol slot ∈ command.writes) : ∃ value, machine.registers.symbols[slot]? = some value ∧
      value.isEmpty = false ∧ value.storage = .varying := by
  obtain ⟨value, hvalue, hstorage, hsize, -⟩ := h slot hslot
  refine ⟨value, hvalue, ?_, hstorage⟩
  rw [Value.isEmpty, hsize, beq_eq_false_iff_ne]
  omega

theorem compute_rewritten {op : PointOp} {type : Option ElementType} {result first last : Address}
    (hpoints : 0 < machine.points) (hadmits : machine.Admits (.compute op type result first last))
    (h : machine.compute constants instruction op type result first last = .ok next) :
    Registers.Rewritten (· = result) machine.registers next.registers := by
  obtain ⟨_, _, _, _, _, registers, -, -, -, -, -, -, -, hcommit, rfl⟩ := compute_eq_ok.mp h
  refine Registers.commit_rewritten (fun slot hslot => ?_) hcommit
  exact hadmits.isEmpty_eq hpoints (List.mem_singleton.mpr hslot.symm)

theorem assign_rewritten {update : Update} {target source : Address}
    (hpoints : 0 < machine.points) (hadmits : machine.Admits (.assign update target source))
    (h : machine.assign constants instruction update target source = .ok next) :
    Registers.Rewritten (· = target) machine.registers next.registers := by
  obtain ⟨destination, value, written, _, floats, registers, -, htarget, -, -, hwritten, -, -, -, hput,
    rfl⟩ := assign_eq_ok.mp h
  refine (Registers.Rewritten.refl _).put hput (.inr ⟨rfl, fun slot old hslot hold => ?_⟩)
  subst hslot
  obtain ⟨old', hold', hempty, hstorage⟩ := hadmits.isEmpty_eq hpoints List.mem_cons_self
  obtain rfl := Option.some.inj (hold'.symm.trans hold)
  obtain rfl : destination = old' := by
    rw [Registers.target, fetch_eq_ok, hold] at htarget
    exact (Option.some.inj htarget).symm
  have hkept : ¬ IsReshaped update (.symbol slot) destination := by
    simp [IsReshaped, hempty]
  rw [shaped, if_neg hkept] at hwritten
  obtain rfl := Except.ok.inj hwritten
  exact ⟨floats, rfl⟩

/-- A builtin with a result does not write its arguments. -/
theorem writes_of_result {function : Builtin} {setting : Setting} {arguments : Array Value}
    {value : Value} (result : Address) (addresses : List Address)
    (h : function.run setting arguments = .ok (.result value)) :
    Command.writes (.call function result addresses) = [result] := by
  cases function with
  | setComponent axis => simp [Builtin.run] at h
  | fresnel => simp [Builtin.run] at h
  | _ => rfl

/-- Writing a component changes the floats of the first argument. -/
theorem setComponent_place {setting : Setting} {arguments values : Array Value} {axis : Axis}
    (h : setting.setComponent arguments axis = .ok values) {n : Nat} {value after : Value}
    (hvalue : arguments[n]? = some value) (hafter : values[n]? = some after) :
    after = value ∨ n = 0 ∧ ∃ floats, after = { value with floats := floats } := by
  obtain ⟨p, x, floats, hp, -, -, -, -, rfl⟩ := Setting.setComponent_eq_ok.mp h
  rw [Array.getElem?_setIfInBounds] at hafter
  by_cases hn : 0 = n
  · subst hn
    obtain rfl : p = value := Option.some.inj (hp.symm.trans hvalue)
    rw [if_pos rfl, if_pos (Array.getElem?_eq_some_iff.mp hp).1] at hafter
    exact .inr ⟨rfl, floats, (Option.some.inj hafter).symm⟩
  · rw [if_neg hn, hvalue] at hafter
    exact .inl (Option.some.inj hafter).symm

/-- Writing coefficients changes the floats of the last two arguments, if those are varying floats. -/
theorem fresnel_place {setting : Setting} {arguments values : Array Value}
    (h : setting.fresnel arguments = .ok values) {n : Nat} {value after : Value}
    (hvalue : arguments[n]? = some value) (hafter : values[n]? = some after) :
    after = value ∨ (n = 3 ∨ n = 4) ∧ (value.fits .float .varying setting.points = true →
      ∃ floats, after = { value with floats := floats }) := by
  obtain ⟨incident, normal, eta, r, t, kr, kt, floats, -, -, -, hr, ht, -, -, hkr, hkt, -, rfl⟩ :=
    Setting.fresnel_eq_ok.mp h
  have hensure : ∀ k out : Value, k.ensure .float .varying setting.points = .ok out →
      k.fits .float .varying setting.points = true → out = k := by
    intro k out hout hk
    rw [Value.ensure, if_pos hk] at hout
    exact (Except.ok.inj hout).symm
  rw [Array.getElem?_setIfInBounds, Array.getElem?_setIfInBounds] at hafter
  by_cases h4 : 4 = n
  · subst h4
    obtain rfl : t = value := Option.some.inj (ht.symm.trans hvalue)
    rw [if_pos rfl, if_pos (by simpa using (Array.getElem?_eq_some_iff.mp ht).1)] at hafter
    refine .inr ⟨.inr rfl, fun hfits => ⟨floats.2, ?_⟩⟩
    rw [← Option.some.inj hafter, hensure t kt hkt hfits]
  · rw [if_neg h4] at hafter
    by_cases h3 : 3 = n
    · subst h3
      obtain rfl : r = value := Option.some.inj (hr.symm.trans hvalue)
      rw [if_pos rfl, if_pos (Array.getElem?_eq_some_iff.mp hr).1] at hafter
      refine .inr ⟨.inl rfl, fun hfits => ⟨floats.1, ?_⟩⟩
      rw [← Option.some.inj hafter, hensure r kr hkr hfits]
    · rw [if_neg h3, hvalue] at hafter
      exact .inl (Option.some.inj hafter).symm

/-- What a void builtin leaves at a place of its arguments: the argument, or one with other floats
    where the call writes. -/
theorem place_of_run {function : Builtin} {setting : Setting} {arguments values : Array Value}
    {address : Address} {addresses : List Address} (result : Address)
    (h : function.run setting arguments = .ok (.arguments values)) {n : Nat} {value after : Value}
    (haddress : addresses[n]? = some address) (hvalue : arguments[n]? = some value)
    (hafter : values[n]? = some after)
    (hfits : function = .fresnel → n = 3 ∨ n = 4 → ∀ slot, address = .symbol slot →
      value.fits .float .varying setting.points = true) :
    after = value ∨ address ∈ Command.writes (.call function result addresses) ∧
      ∀ slot, address = .symbol slot → ∃ floats, after = { value with floats := floats } := by
  obtain ⟨axis, rfl, hrun⟩ | ⟨rfl, hrun⟩ := run_arguments h
  · refine (setComponent_place hrun hvalue hafter).imp_right ?_
    rintro ⟨rfl, hfloats⟩
    refine ⟨List.mem_of_getElem? (i := 0) ?_, fun _ _ => hfloats⟩
    simpa [Command.writes] using haddress
  · refine (fresnel_place hrun hvalue hafter).imp_right ?_
    rintro ⟨hn, hfloats⟩
    refine ⟨List.mem_of_getElem? (i := n - 3) ?_, fun slot hslot =>
      hfloats (hfits rfl hn slot hslot)⟩
    rw [Command.writes, List.getElem?_drop, ← haddress]
    congr 1
    omega

theorem call_rewritten {scene : Scene} {function : Builtin} {result : Address}
    {addresses : List Address} (hpoints : 0 < machine.points)
    (hadmits : machine.Admits (.call function result addresses))
    (h : machine.call constants scene function result addresses = .ok next) :
    Registers.Rewritten (· ∈ Command.writes (.call function result addresses)) machine.registers
      next.registers := by
  obtain ⟨arguments, mask, reply, registers, harguments, -, -, hrun, hreplied, rfl⟩ :=
    call_eq_ok.mp h
  obtain ⟨-, harguments⟩ := mapM_eq_ok.mp harguments
  cases reply with
  | result value =>
    have hwrites := writes_of_result result addresses hrun
    have hcommit : Registers.Rewritten (· = result) machine.registers registers :=
      Registers.commit_rewritten (fun slot hslot => hadmits.isEmpty_eq hpoints
        (by rw [hwrites, ← hslot]; exact List.mem_cons_self)) hreplied
    refine hcommit.mono fun address haddress => ?_
    rw [hwrites, haddress]
    exact List.mem_cons_self
  | arguments values =>
    refine foldlM_invariant (Registers.Rewritten _ machine.registers) (.refl _) ?_ hreplied
    rintro registers ⟨address, n⟩ after hmem hrewritten hput
    have haddress : addresses[n]? = some address := List.mk_mem_zipIdx_iff_getElem?.mp hmem
    dsimp only at hput
    split at hput
    next =>
      obtain rfl := pure_eq_ok.mp hput
      exact hrewritten
    next hfirst =>
      obtain ⟨left, hleft, hput⟩ := bind_eq_ok.mp hput
      obtain ⟨value, hvalue, hargument⟩ := harguments n (address, n) (by simp [haddress])
      -- the argument was moved out of the register that it is put back to
      rw [Bool.or_eq_true, not_or] at hfirst
      change machine.argument constants function result addresses n address = _ at hargument
      rw [argument, if_neg hfirst.1, if_neg hfirst.2] at hargument
      have htarget : machine.registers.target address = .ok value := by
        cases address with
        | constant index => exact (Registers.put_constant.mp hput).elim
        | symbol index => exact hargument
        | temporary index => exact hargument
      have hsymbol : ∀ slot, address = .symbol slot →
          machine.registers.symbols[slot]? = some value := by
        rintro slot rfl
        exact fetch_eq_ok.mp htarget
      have hpassed : arguments.toArray[n]? = some value := by simpa using hvalue
      have hfits : function = .fresnel → n = 3 ∨ n = 4 → ∀ slot, address = .symbol slot →
          value.fits .float .varying machine.points = true := by
        intro hfresnel hn slot hslot
        obtain ⟨value', hvalue', hfits⟩ := hadmits.outputsFit hfresnel n slot hn (hslot ▸ haddress)
        obtain rfl := Option.some.inj ((hsymbol slot hslot).symm.trans hvalue')
        exact hfits
      refine hrewritten.put hput ?_
      obtain rfl | ⟨hwritten, hfloats⟩ :=
        place_of_run result hrun haddress hpassed (fetch_eq_ok.mp hleft) hfits
      · exact .inl htarget
      · refine .inr ⟨hwritten, fun slot old hslot hold => ?_⟩
        obtain rfl := Option.some.inj ((hsymbol slot hslot).symm.trans hold)
        exact hfloats slot hslot

/-- **Commands.**  A command leaves alone what it does not write, and of symbols all but their
    floats. -/
theorem Performed.rewritten (h : Performed renderer shader instruction machine command flow next)
    (hstraight : command.isStraight = true) (hpoints : 0 < machine.points)
    (hadmits : machine.Admits command) :
    Registers.Rewritten (· ∈ command.writes) machine.registers next.registers := by
  cases h with
  | nothing | clearMask | generateMask | invertMask => exact .refl _
  | halt | discard | pass | jump | evaluate => cases hstraight
  | compute _ _ _ _ _ _ h =>
    exact (compute_rewritten hpoints hadmits h).mono fun _ => List.mem_singleton.mpr
  | assign _ _ _ _ h =>
    exact (assign_rewritten hpoints hadmits h).mono fun _ => List.mem_singleton.mpr
  | call _ _ _ _ h => exact call_rewritten hpoints hadmits h

end Machine

end Shading
