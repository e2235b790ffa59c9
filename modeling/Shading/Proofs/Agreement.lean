import Shading.Proofs.CutMachine
import Shading.Proofs.Footprint

namespace Shading

/-!
# Machines that agree at a point

Two machines over a single point that hold the same in the registers in question, and whose masks are
the same inside a level where the point is active.  Around that level the masks may differ: it makes
no difference to an active point how deep inside conditionals it is.

* `MaskStack.Agrees`, `Machine.Agrees` — masks and machines that agree;
* `Command.level?` — how many levels a command leaves open;
* `Machine.Performed.agrees` — a command that both machines perform.
-/

/-! ### Masks -/

/-- How many levels are open after the command, of those opened since some place before it.  A command
    that would leave or turn over another level has no answer. -/
def Command.level? (command : Command) (level : Nat) : Option Nat :=
  match command, level with
  | .generateMask _, level => some (level + 1)
  | .clearMask, 0 | .invertMask, 0 => none
  | .clearMask, level + 1 => some level
  | _, level => some level

namespace MaskStack

variable {a b next next' : MaskStack} {level level' : Nat}

/-- The masks of a single point agree on the levels opened inside one where the point is active. -/
def Agrees (level : Nat) (a b : MaskStack) : Prop :=
  ∃ inner around around', inner.length = level ∧ a = ⟨1, inner ++ #[true] :: around⟩ ∧
    b = ⟨1, inner ++ #[true] :: around'⟩

/-- **Activity.**  No mask at all is as good as one in which the point is active. -/
theorem Agrees.active (h : Agrees level a b) {mask mask' : Option Mask} (ha : a.active = .ok mask)
    (hb : b.active = .ok mask') : mask.getD #[true] = mask'.getD #[true] := by
  obtain ⟨inner, around, around', -, rfl, rfl⟩ := h
  have hactive : ∀ rest, ∀ mask, MaskStack.active ⟨1, inner ++ #[true] :: rest⟩ = .ok mask →
      mask.getD #[true] = inner.head?.getD #[true] := by
    intro rest mask hmask
    match inner, rest with
    | [], [] | [], _ :: _ =>
      obtain rfl := Except.ok.inj hmask
      rfl
    | top :: [], _ | top :: _ :: _, _ =>
      obtain rfl := Except.ok.inj hmask
      rfl
  rw [hactive around mask ha, hactive around' mask' hb]

theorem Agrees.generate (h : Agrees level a b) {predicate : Value}
    (ha : a.generate predicate = .ok next) (hb : b.generate predicate = .ok next') :
    Agrees (level + 1) next next' := by
  obtain ⟨inner, around, around', rfl, rfl, rfl⟩ := h
  obtain ⟨-, -, top, mask, htop, hmask, rfl⟩ := generate_eq_ok.mp ha
  obtain ⟨-, -, top', mask', htop', hmask', rfl⟩ := generate_eq_ok.mp hb
  have hsame : top = top' := by
    rw [top_eq_ok] at htop htop'
    cases inner <;> simp_all
  subst hsame
  obtain rfl := Except.ok.inj (hmask.symm.trans hmask')
  exact ⟨mask :: inner, around, around', rfl, rfl, rfl⟩

theorem Agrees.invert (h : Agrees (level + 1) a b) (ha : a.invert = .ok next)
    (hb : b.invert = .ok next') : Agrees (level + 1) next next' := by
  obtain ⟨inner, around, around', hlength, rfl, rfl⟩ := h
  match inner, hlength with
  | [top], hlength =>
    obtain rfl := Except.ok.inj ha
    obtain rfl := Except.ok.inj hb
    exact ⟨[otherBranch top #[true]], around, around', hlength, rfl, rfl⟩
  | top :: enclosing :: inner, hlength =>
    obtain rfl := Except.ok.inj ha
    obtain rfl := Except.ok.inj hb
    exact ⟨otherBranch top enclosing :: enclosing :: inner, around, around', hlength, rfl, rfl⟩

theorem Agrees.clear (h : Agrees (level + 1) a b) (ha : a.clear = .ok next)
    (hb : b.clear = .ok next') : Agrees level next next' := by
  obtain ⟨inner, around, around', hlength, rfl, rfl⟩ := h
  match inner, hlength with
  | [top], hlength =>
    obtain rfl := Except.ok.inj ha
    obtain rfl := Except.ok.inj hb
    exact ⟨[], around, around', Nat.succ.inj hlength, rfl, rfl⟩
  | top :: enclosing :: inner, hlength =>
    obtain rfl := Except.ok.inj ha
    obtain rfl := Except.ok.inj hb
    exact ⟨enclosing :: inner, around, around', Nat.succ.inj hlength, rfl, rfl⟩

end MaskStack

/-! ### Writing at a single point -/

section Single

variable {mask : Option Mask}

theorem Update.run_single {update : Update} {destination source : Buffer} :
    update.run destination source mask 1
      = update.run destination source (some (mask.getD #[true])) 1 := by
  cases mask with
  | some mask => rfl
  | none =>
    have hone : update.destination.storage.size 1 = 1 := by
      cases update.destination.storage <;> rfl
    have hwrites : update.writes none 0 = update.writes (some #[true]) 0 := by
      unfold writes
      cases update.destination.storage <;> rfl
    unfold run
    rw [hone, forPlaces_one, forPlaces_one, hwrites]
    rfl

theorem Registers.merge_single {width : Nat} {target value out : Buffer} (hsize : target.size = width)
    (h : merge mask width target value = .ok out) :
    merge (some (mask.getD #[true])) width target value = .ok out := by
  cases mask with
  | some mask => exact h
  | none =>
    obtain ⟨hvalue, rfl⟩ := merge_none_eq_ok.mp h
    rcases Nat.eq_zero_or_pos width with rfl | hpos
    · have hempty : target = out := by
        rw [Array.eq_empty_of_size_eq_zero hsize,
          Array.eq_empty_of_size_eq_zero (hvalue.symm.trans hsize)]
      rw [hempty]
      exact merge_zero_width
    · refine (merge_eq_ok hpos).mpr ⟨fun e he _ c hc => ?_, ?_⟩
      · obtain rfl : e = 0 := by simpa using he
        omega
      · refine Array.ext_getElem? fun k => ?_
        rw [getElem?_rewriteAt]
        by_cases hk : k < width
        · have hk' : k < out.size := by omega
          simp [Nat.div_eq_of_lt hk, hsize, hk, hk']
        · rw [Array.getElem?_eq_none (by omega), Array.getElem?_eq_none (by omega)]
          simp

theorem Setting.isActive_single {scene : Scene} :
    Setting.isActive ⟨scene, 1, 1, mask⟩ 0
      = Setting.isActive ⟨scene, 1, 1, some (mask.getD #[true])⟩ 0 := by
  cases mask <;> rfl

theorem Setting.setComponent_single {scene : Scene} {arguments out : Array Value} {axis : Axis}
    (hover : Value.AllOver 1 arguments)
    (h : Setting.setComponent ⟨scene, 1, 1, mask⟩ arguments axis = .ok out) :
    Setting.setComponent ⟨scene, 1, 1, some (mask.getD #[true])⟩ arguments axis = .ok out := by
  obtain ⟨p, x, floats, hp, hx, htriple, hstorage, hfloats, rfl⟩ := setComponent_eq_ok.mp h
  refine setComponent_eq_ok.mpr ⟨p, x, floats, hp, hx, htriple, hstorage, ?_, rfl⟩
  have hwrite : writeComponent ⟨scene, 1, 1, mask⟩ p x axis 0
      = writeComponent ⟨scene, 1, 1, some (mask.getD #[true])⟩ p x axis 0 := by
    funext floats
    unfold writeComponent reaches
    rw [isActive_single]
  have hsize : p.size = 0 ∨ p.size = 1 := by
    obtain rfl | hsize := (hover 0 p hp).size
    · exact .inl rfl
    · refine .inr (hsize.trans ?_)
      cases p.storage <;> rfl
  obtain hsize | hsize := hsize
  · rw [hsize, forPlaces_zero] at hfloats ⊢
    exact hfloats
  · rw [hsize, forPlaces_one] at hfloats ⊢
    rwa [← hwrite]

theorem Setting.fresnel_single {scene : Scene} {arguments out : Array Value}
    (h : Setting.fresnel ⟨scene, 1, 1, mask⟩ arguments = .ok out) :
    Setting.fresnel ⟨scene, 1, 1, some (mask.getD #[true])⟩ arguments = .ok out := by
  obtain ⟨incident, n, eta, r, t, kr, kt, floats, hincident, hn, heta, hr, ht, htriple, htriple', hkr,
    hkt, hfloats, rfl⟩ := fresnel_eq_ok.mp h
  refine fresnel_eq_ok.mpr ⟨incident, n, eta, r, t, kr, kt, floats, hincident, hn, heta, hr, ht,
    htriple, htriple', hkr, hkt, ?_, rfl⟩
  have hpoints : ∀ mask, Setting.points ⟨scene, 1, 1, mask⟩ = 1 := fun _ => rfl
  rw [hpoints, forPlaces_one] at hfloats ⊢
  rw [← hfloats, writeCoefficients, writeCoefficients, ← isActive_single]

/-- **Builtins** reply the same with any two masks in which the only point is active. -/
theorem Builtin.run_single {function : Builtin} {scene : Scene} {arguments : Array Value}
    {reply : Reply} (hover : Value.AllOver 1 arguments)
    (h : function.run ⟨scene, 1, 1, mask⟩ arguments = .ok reply) :
    function.run ⟨scene, 1, 1, some (mask.getD #[true])⟩ arguments = .ok reply := by
  cases function with
  | setComponent axis =>
    obtain ⟨values, hvalues, rfl⟩ := map_eq_ok.mp h
    exact map_eq_ok.mpr ⟨values, Setting.setComponent_single hover hvalues, rfl⟩
  | fresnel =>
    obtain ⟨values, hvalues, rfl⟩ := map_eq_ok.mp h
    exact map_eq_ok.mpr ⟨values, Setting.fresnel_single hvalues, rfl⟩
  | _ => exact h

end Single

/-! ### Registers -/

namespace Registers

variable {registers registers' next next' : Registers} {seen : Address → Prop} {address : Address}
  {value : Value} {level : Nat} {masks masks' : MaskStack}

/-- Registers that hold the same at the addresses in question. -/
def Agrees (seen : Address → Prop) (registers registers' : Registers) : Prop :=
  ∀ constants address, seen address →
    registers.read constants address = registers'.read constants address

theorem Agrees.put (h : Agrees seen registers registers') (hput : registers.put address value = .ok next)
    (hput' : registers'.put address value = .ok next') : Agrees seen next next' := by
  intro constants other hother
  rw [read_put hput, read_put hput', h constants other hother]

theorem Agrees.target (h : Agrees seen registers registers') (haddress : seen address) :
    registers.target address = registers'.target address := by
  cases address with
  | constant n => rfl
  | symbol n => exact h #[] (.symbol n) haddress
  | temporary n => exact h #[] (.temporary n) haddress

theorem Agrees.claim (h : Agrees seen registers registers') (haddress : seen address) :
    registers.claim address = registers'.claim address := by
  cases address with
  | constant n => rfl
  | symbol n => rfl
  | temporary n => exact h #[] (.temporary n) haddress

/-- What a symbol takes over a single point does not depend on how the point is active. -/
theorem Takes.agrees {target taken taken' : Value} (hmasks : masks.Agrees level masks')
    (htarget : target.Over 1) (h : Takes masks 1 target value taken)
    (h' : Takes masks' 1 target value taken') : taken = taken' := by
  cases h with
  | empty hempty =>
    cases h' with
    | empty => rfl
    | uniform h => simp [hempty] at h
    | varying _ _ _ h => simp [hempty] at h
  | uniform hempty hstorage =>
    cases h' with
    | empty | uniform => rfl
    | varying _ _ _ _ h => simp [hstorage] at h
  | varying full mask floats hempty hstorage _ hfull hmask hmerge =>
    cases h' with
    | empty h => simp [hempty] at h
    | uniform _ h => simp [hstorage] at h
    | varying full' mask' floats' _ _ _ hfull' hmask' hmerge' =>
      obtain rfl := Except.ok.inj (hfull.symm.trans hfull')
      have hsize : target.floats.size = target.components := by
        rw [htarget.floats_of_varying hstorage, Nat.mul_one]
      have hmerge := merge_single hsize hmerge
      have hmerge' := merge_single hsize hmerge'
      rw [← hmasks.active hmask hmask', hmerge] at hmerge'
      rw [Except.ok.inj hmerge']

/-- **Results.**  Both registers take the same. -/
theorem Agrees.commit (h : Agrees seen registers registers') (haddress : seen address)
    (hmasks : masks.Agrees level masks') (hover : registers.Over 1)
    (hcommit : registers.commit masks 1 address value = .ok next)
    (hcommit' : registers'.commit masks' 1 address value = .ok next') : Agrees seen next next' := by
  cases address with
  | constant n => exact (commit_constant.mp hcommit).elim
  | temporary n =>
    exact h.put (put_temporary.mpr (commit_temporary.mp hcommit))
      (put_temporary.mpr (commit_temporary.mp hcommit'))
  | symbol n =>
    obtain ⟨target, taken, htarget, htakes, rfl⟩ := commit_symbol_eq_ok.mp hcommit
    obtain ⟨target', taken', htarget', htakes', rfl⟩ := commit_symbol_eq_ok.mp hcommit'
    have hread := h #[] (.symbol n) haddress
    rw [read, read, fetch_eq_ok.mpr htarget, fetch_eq_ok.mpr htarget'] at hread
    obtain rfl := Except.ok.inj hread
    obtain rfl := htakes.agrees hmasks (hover.symbols n target htarget) htakes'
    exact h.put (put_symbol.mpr ⟨(Array.getElem?_eq_some_iff.mp htarget).1, rfl⟩)
      (put_symbol.mpr ⟨(Array.getElem?_eq_some_iff.mp htarget').1, rfl⟩)

end Registers

/-! ### Machines -/

namespace Machine

variable {σ : Type} {renderer : Renderer σ} {shader : Shader} {constants : Array Value}
  {machine machine' next next' : Machine σ} {instruction instruction' : Instruction}
  {command : Command} {flow flow' : Flow} {seen : Address → Prop} {level level' : Nat}

/-- Two machines over a single point that agree on the registers in question, and on the masks inside
    a level where the point is active. -/
structure Agrees (seen : Address → Prop) (level : Nat) (machine machine' : Machine σ) : Prop where
  width_eq : machine.width = 1 ∧ machine'.width = 1
  height_eq : machine.height = 1 ∧ machine'.height = 1
  masks : machine.masks.Agrees level machine'.masks
  registers : machine.registers.Agrees seen machine'.registers

theorem Agrees.points_eq (h : machine.Agrees seen level machine') :
    machine.points = 1 ∧ machine'.points = 1 := by
  unfold points
  rw [h.width_eq.1, h.width_eq.2, h.height_eq.1, h.height_eq.2]
  exact ⟨rfl, rfl⟩

theorem Agrees.compute {op : PointOp} {type : Option ElementType} {result first last : Address}
    (h : machine.Agrees seen level machine') (hover : machine.registers.Over 1)
    (hseen : ∀ address ∈ [result, first, last], seen address)
    (hnext : machine.compute constants instruction op type result first last = .ok next)
    (hnext' : machine'.compute constants instruction' op type result first last = .ok next') :
    next.Agrees seen level next' := by
  obtain ⟨destination, a, b, fitted, floats, registers, -, hclaim, ha, hb, -, hfitted, hfloats,
    hcommit, rfl⟩ := compute_eq_ok.mp hnext
  obtain ⟨destination', a', b', fitted', floats', registers', -, hclaim', ha', hb', -, hfitted',
    hfloats', hcommit', rfl⟩ := compute_eq_ok.mp hnext'
  rw [h.points_eq.1] at hfitted hfloats hcommit
  rw [h.points_eq.2] at hfitted' hfloats' hcommit'
  rw [h.registers.claim (hseen result (by simp)), hclaim', Except.ok.injEq] at hclaim
  rw [h.registers constants first (hseen first (by simp)), ha', Except.ok.injEq] at ha
  rw [h.registers constants last (hseen last (by simp)), hb', Except.ok.injEq] at hb
  subst hclaim ha hb
  obtain rfl := Except.ok.inj (hfitted.symm.trans hfitted')
  obtain rfl := Except.ok.inj (hfloats.symm.trans hfloats')
  exact ⟨h.width_eq, h.height_eq, h.masks,
    h.registers.commit (hseen result (by simp)) h.masks hover hcommit hcommit'⟩

theorem Agrees.assign {update : Update} {target source : Address}
    (h : machine.Agrees seen level machine')
    (hseen : ∀ address ∈ [target, source], seen address)
    (hnext : machine.assign constants instruction update target source = .ok next)
    (hnext' : machine'.assign constants instruction' update target source = .ok next') :
    next.Agrees seen level next' := by
  obtain ⟨destination, value, written, mask, floats, registers, -, htarget, hvalue, -, hwritten, -,
    hmask, hfloats, hput, rfl⟩ := assign_eq_ok.mp hnext
  obtain ⟨destination', value', written', mask', floats', registers', -, htarget', hvalue', -,
    hwritten', -, hmask', hfloats', hput', rfl⟩ := assign_eq_ok.mp hnext'
  rw [h.points_eq.1] at hwritten hfloats
  rw [h.points_eq.2] at hwritten' hfloats'
  rw [h.registers.target (hseen target (by simp)), htarget', Except.ok.injEq] at htarget
  rw [h.registers constants source (hseen source (by simp)), hvalue', Except.ok.injEq] at hvalue
  subst htarget hvalue
  obtain rfl := Except.ok.inj (hwritten.symm.trans hwritten')
  have hactive : mask.getD #[true] = mask'.getD #[true] := by
    unfold assignmentMask at hmask hmask'
    cases hstorage : update.destination.storage with
    | uniform =>
      rw [hstorage] at hmask hmask'
      rw [← Except.ok.inj hmask, ← Except.ok.inj hmask']
    | varying =>
      rw [hstorage] at hmask hmask'
      exact h.masks.active hmask hmask'
  rw [Update.run_single, hactive, ← Update.run_single, hfloats', Except.ok.injEq] at hfloats
  subst hfloats
  exact ⟨h.width_eq, h.height_eq, h.masks, h.registers.put hput hput'⟩

theorem Agrees.argument {function : Builtin} {result address : Address}
    {addresses : List Address} {n : Nat} (h : machine.Agrees seen level machine')
    (haddress : seen address) :
    machine.argument constants function result addresses n address
      = machine'.argument constants function result addresses n address := by
  unfold Machine.argument
  rw [h.registers constants address haddress]

theorem Agrees.arguments {function : Builtin} {result : Address} {addresses : List Address}
    (h : machine.Agrees seen level machine') (hseen : ∀ address ∈ addresses, seen address) :
    addresses.zipIdx.mapM (fun (address, n) =>
      machine.argument constants function result addresses n address)
      = addresses.zipIdx.mapM (fun (address, n) =>
        machine'.argument constants function result addresses n address) :=
  mapM_congr fun _ hentry => h.argument (hseen _ (List.fst_mem_of_mem_zipIdx hentry))

theorem Agrees.call {scene : Scene} {function : Builtin} {result : Address}
    {addresses : List Address} (h : machine.Agrees seen level machine')
    (hover : machine.registers.Over 1) (hconstants : Value.AllOver 1 constants)
    (hseen : ∀ address ∈ result :: addresses, seen address)
    (hnext : machine.call constants scene function result addresses = .ok next)
    (hnext' : machine'.call constants scene function result addresses = .ok next') :
    next.Agrees seen level next' := by
  obtain ⟨arguments, mask, reply, registers, harguments, -, hmask, hrun, hreplied, rfl⟩ :=
    call_eq_ok.mp hnext
  obtain ⟨arguments', mask', reply', registers', harguments', -, hmask', hrun', hreplied', rfl⟩ :=
    call_eq_ok.mp hnext'
  have hallover := arguments_over hover hconstants harguments
  rw [h.arguments fun address haddress => hseen address (List.mem_cons_of_mem _ haddress),
    harguments', Except.ok.injEq] at harguments
  subst harguments
  rw [h.width_eq.1, h.height_eq.1] at hrun
  rw [h.width_eq.2, h.height_eq.2] at hrun'
  have hrun := Builtin.run_single hallover hrun
  rw [h.masks.active hmask hmask', Builtin.run_single hallover hrun', Except.ok.injEq] at hrun
  subst hrun
  refine ⟨h.width_eq, h.height_eq, h.masks, ?_⟩
  cases reply' with
  | result value =>
    rw [replied, h.points_eq.1] at hreplied
    rw [replied, h.points_eq.2] at hreplied'
    exact h.registers.commit (hseen result List.mem_cons_self) h.masks hover hreplied hreplied'
  | arguments values =>
    -- the same values are put back in the same order
    refine foldlM_relates (Registers.Agrees seen) h.registers ?_ hreplied hreplied'
    rintro registers registers' ⟨address, n⟩ after after' - hagrees hput hput'
    dsimp only at hput hput'
    split at hput
    next hleft =>
      rw [if_pos hleft] at hput'
      obtain rfl := pure_eq_ok.mp hput
      obtain rfl := pure_eq_ok.mp hput'
      exact hagrees
    next hleft =>
      rw [if_neg hleft] at hput'
      obtain ⟨value, hvalue, hput⟩ := bind_eq_ok.mp hput
      obtain ⟨value', hvalue', hput'⟩ := bind_eq_ok.mp hput'
      obtain rfl := Except.ok.inj (hvalue.symm.trans hvalue')
      exact hagrees.put hput hput'

/-- **Commands.**  Machines that agree before a command that both perform agree after it. -/
theorem Performed.agrees (h : Performed renderer shader instruction machine command flow next)
    (h' : Performed renderer shader instruction' machine' command flow' next')
    (hagrees : machine.Agrees seen level machine') (hover : machine.registers.Over 1)
    (hconstants : Value.AllOver 1 shader.constants) (hstraight : command.isStraight = true)
    (hseen : ∀ address ∈ command.mentions, seen address)
    (hlevel : command.level? level = some level') :
    next.Agrees seen level' next' := by
  -- both machines perform the same command, so a case of one is that case of the other
  cases h with
  | halt | discard | pass | jump | evaluate => cases hstraight
  | nothing =>
    cases h'
    obtain rfl : level = level' := by simpa [Command.level?] using hlevel
    exact hagrees
  | clearMask masks h =>
    cases h' with
    | clearMask masks' h' =>
      match level, hlevel with
      | level + 1, hlevel =>
        obtain rfl := Option.some.inj hlevel
        exact ⟨hagrees.width_eq, hagrees.height_eq, hagrees.masks.clear h h', hagrees.registers⟩
  | invertMask masks h =>
    cases h' with
    | invertMask masks' h' =>
      match level, hlevel with
      | level + 1, hlevel =>
        obtain rfl := Option.some.inj hlevel
        exact ⟨hagrees.width_eq, hagrees.height_eq, hagrees.masks.invert h h', hagrees.registers⟩
  | generateMask predicate value masks hvalue h =>
    cases h' with
    | generateMask _ value' masks' hvalue' h' =>
      rw [hagrees.registers _ predicate (hseen predicate List.mem_cons_self), hvalue',
        Except.ok.injEq] at hvalue
      subst hvalue
      obtain rfl := Option.some.inj hlevel
      exact ⟨hagrees.width_eq, hagrees.height_eq, hagrees.masks.generate h h', hagrees.registers⟩
  | compute op type result first last _ h =>
    cases h' with
    | compute _ _ _ _ _ _ h' =>
      obtain rfl : level = level' := by simpa [Command.level?] using hlevel
      exact hagrees.compute hover hseen h h'
  | assign update target source _ h =>
    cases h' with
    | assign _ _ _ _ h' =>
      obtain rfl : level = level' := by simpa [Command.level?] using hlevel
      exact hagrees.assign hseen h h'
  | call function result addresses _ h =>
    cases h' with
    | call _ _ _ _ h' =>
      obtain rfl : level = level' := by simpa [Command.level?] using hlevel
      exact hagrees.call hover hconstants hseen h h'

end Machine

end Shading
