import Shading.Proofs.Cut
import Shading.Proofs.Passing

namespace Shading

/-!
# Inactive points are left alone

Inside a conditional a point that its mask leaves out keeps its element of every varying symbol,
whatever is executed, until the conditional is left or turned over.

* `Registers.Keeps` — the varying symbols have the same element at a point before and after;
* `Machine.perform_keeps` — a single command under a mask that leaves the point out;
* `Machine.Shielded` — stretches of execution inside a conditional;
* `Machine.Shielded.cut_unchanged` — the elements over a whole stretch.
-/

/-! ### Values and registers that keep an element -/

/-- If the value before is varying and has an element at `i`, the value after has the same one. -/
def Value.Keeps (i : Nat) (before after : Value) : Prop :=
  before.storage = .varying → i < before.size → after.cut i = before.cut i ∧ after.size = before.size

namespace Value.Keeps

variable {i : Nat} {before after last : Value}

theorem refl (value : Value) : value.Keeps i value := fun _ _ => ⟨rfl, rfl⟩

theorem trans (h : before.Keeps i after) (h' : after.Keeps i last) : before.Keeps i last := by
  intro hstorage hi
  obtain ⟨hcut, hsize⟩ := h hstorage hi
  have hafter : after.storage = .varying := by
    rw [← after.cut_storage (i := i), hcut, cut_storage, hstorage]
  obtain ⟨hcut', hsize'⟩ := h' hafter (by omega)
  exact ⟨hcut'.trans hcut, hsize'.trans hsize⟩

theorem of_uniform (h : before.storage = .uniform) : before.Keeps i after := by
  intro hstorage
  rw [h] at hstorage
  cases hstorage

theorem of_isEmpty (h : before.isEmpty = true) : before.Keeps i after := by
  intro _ hi
  have hsize : before.size = 0 := by simpa [isEmpty] using h
  omega

/-- Only the floats change, and those of element `i` do not. -/
theorem of_floats {floats : Buffer}
    (h : before.storage = .varying →
      cutFloats before.components i floats = cutFloats before.components i before.floats) :
    before.Keeps i { before with floats := floats } := by
  intro hstorage _
  refine ⟨?_, rfl⟩
  rw [cut_varying hstorage, cut_with_floats hstorage]
  exact congrArg (fun floats => { before with size := 1, floats := floats }) (h hstorage)

end Value.Keeps

namespace Registers

variable {i : Nat} {registers next last : Registers} {value : Value}

/-- The registers after have every element that the varying symbols had at `i` before. -/
def Keeps (i : Nat) (before after : Registers) : Prop :=
  ∀ (slot : Nat) (value : Value), before.symbols[slot]? = some value →
    ∃ value', after.symbols[slot]? = some value' ∧ value.Keeps i value'

namespace Keeps

theorem of_symbols (h : next.symbols = registers.symbols) : registers.Keeps i next := by
  intro slot value hvalue
  exact ⟨value, by rw [h, hvalue], .refl value⟩

theorem refl (registers : Registers) : registers.Keeps i registers := .of_symbols rfl

theorem trans (h : registers.Keeps i next) (h' : next.Keeps i last) : registers.Keeps i last := by
  intro slot value hvalue
  obtain ⟨value', hvalue', hkeeps⟩ := h slot value hvalue
  obtain ⟨value'', hvalue'', hkeeps'⟩ := h' slot value' hvalue'
  exact ⟨value'', hvalue'', hkeeps.trans hkeeps'⟩

/-- Putting a value where it keeps the element that was there at first. -/
theorem put {address : Address} (h : registers.Keeps i next)
    (hput : next.put address value = .ok last)
    (hvalue : ∀ slot old, address = .symbol slot → registers.symbols[slot]? = some old →
      old.Keeps i value) : registers.Keeps i last := by
  cases address with
  | constant index => exact (put_constant.mp hput).elim
  | temporary index =>
    obtain ⟨-, rfl⟩ := put_temporary.mp hput
    exact h.trans (.of_symbols rfl)
  | symbol index =>
    obtain ⟨hlt, rfl⟩ := put_symbol.mp hput
    intro slot old hold
    by_cases hslot : slot = index
    · subst hslot
      exact ⟨value, by simp [hlt], hvalue slot old rfl hold⟩
    · obtain ⟨value', hvalue', hkeeps⟩ := h slot old hold
      refine ⟨value', ?_, hkeeps⟩
      rw [Array.getElem?_setIfInBounds, if_neg (Ne.symm hslot), hvalue']

end Keeps

/-- **Results.**  A symbol takes nothing at a point that the mask leaves out. -/
theorem commit_keeps {masks : MaskStack} {mask : Mask} {points : Nat} {result : Address}
    (hmask : masks.active = .ok (some mask)) (hi : mask.getD i false = false)
    (h : registers.commit masks points result value = .ok next) : registers.Keeps i next := by
  cases result with
  | constant index => exact (commit_constant.mp h).elim
  | temporary index =>
    obtain ⟨-, rfl⟩ := commit_temporary.mp h
    exact .of_symbols rfl
  | symbol index =>
    obtain ⟨target, taken, htarget, htakes, rfl⟩ := commit_symbol_eq_ok.mp h
    have hlt := (Array.getElem?_eq_some_iff.mp htarget).1
    refine (Keeps.refl registers).put (put_symbol.mpr ⟨hlt, rfl⟩) fun slot old hslot hold => ?_
    obtain rfl : index = slot := by simpa using hslot
    obtain rfl : target = old := Option.some.inj (htarget.symm.trans hold)
    cases htakes with
    | empty hempty => exact .of_isEmpty hempty
    | uniform _ hstorage => exact .of_uniform hstorage
    | varying full active floats _ hstorage _ _ hactive hmerge =>
      obtain rfl : some mask = active := Except.ok.inj (hmask.symm.trans hactive)
      refine .of_floats fun _ => ?_
      rcases Nat.eq_zero_or_pos target.components with hzero | hpos
      · -- strings have no floats to merge
        rw [hzero] at hmerge ⊢
        rw [← Except.ok.inj (merge_zero_width.symm.trans hmerge)]
      · obtain ⟨-, rfl⟩ := (merge_eq_ok hpos).mp hmerge
        refine cutFloats_rewriteAt_eq_self fun c hc => ?_
        rw [block_div hc, isActiveAt_some, hi, Bool.and_false]

end Registers

/-! ### Commands under a mask -/

namespace Setting

variable {setting : Setting} {mask : Mask} {i : Nat} {arguments values : Array Value}

/-- Writing a component leaves an inactive element of every argument. -/
theorem setComponent_keeps {axis : Axis} (hmask : setting.mask = some mask)
    (hi : mask.getD i false = false) (h : setting.setComponent arguments axis = .ok values)
    {n : Nat} {value after : Value} (hvalue : arguments[n]? = some value)
    (hafter : values[n]? = some after) : value.Keeps i after := by
  obtain ⟨p, x, floats, hp, -, htriple, -, hfloats, rfl⟩ := setComponent_eq_ok.mp h
  rw [Array.getElem?_setIfInBounds] at hafter
  by_cases hn : 0 = n
  · subst hn
    obtain rfl : p = value := Option.some.inj (hp.symm.trans hvalue)
    have hlt := (Array.getElem?_eq_some_iff.mp hp).1
    obtain rfl : { p with floats := floats } = after := by simpa [hlt] using hafter
    refine .of_floats fun hvarying => ?_
    obtain ⟨-, rfl⟩ := (writeComponents_eq_ok hvarying).mp hfloats
    rw [Value.components_of_isTriple htriple]
    refine cutFloats_rewriteAt_eq_self fun c hc => ?_
    rw [block_div hc, hmask, isActiveAt_some, hi, Bool.and_false]
  · rw [if_neg hn, hvalue] at hafter
    exact Option.some.inj hafter ▸ .refl value

/-- Writing coefficients leaves an inactive element of every argument, if those that are written are
    varying floats. -/
theorem fresnel_keeps (hmask : setting.mask = some mask) (hi : mask.getD i false = false)
    (h : setting.fresnel arguments = .ok values) {n : Nat} {value after : Value}
    (hvalue : arguments[n]? = some value)
    (hfits : n = 3 ∨ n = 4 → value.fits .float .varying setting.points = true)
    (hafter : values[n]? = some after) : value.Keeps i after := by
  obtain ⟨incident, normal, eta, r, t, kr, kt, floats, -, -, -, hr, ht, -, -, hkr, hkt, hfloats, rfl⟩ :=
    fresnel_eq_ok.mp h
  obtain ⟨-, rfl⟩ := writeCoefficients_eq_ok.mp hfloats
  -- either loop writes nothing at an inactive element
  have hkeeps : ∀ (k : Value) (pick : Float32 × Float32 → Float32),
      k.fits .float .varying setting.points = true → k.Keeps i { k with
        floats := rewriteAt (fun e => e < setting.points)
          (setting.coefficientOr incident normal eta pick) k.floats } := by
    intro k pick hk
    refine .of_floats fun hvarying => cutFloats_congr fun c hc => ?_
    have hone : k.components = 1 := by rw [Value.components, (Value.fits_iff.mp hk).1]; rfl
    have hplace : i * k.components + c = i := by
      rw [hone] at hc ⊢
      omega
    rw [hplace, getElem?_rewriteAt, coefficientOr_inactive (by rw [hmask, isActiveAt_some, hi])]
    simp
  have hensure : ∀ k out : Value, k.fits .float .varying setting.points = true →
      k.ensure .float .varying setting.points = .ok out → out = k := by
    intro k out hk hout
    rw [Value.ensure, if_pos hk] at hout
    exact (Except.ok.inj hout).symm
  rw [Array.getElem?_setIfInBounds, Array.getElem?_setIfInBounds] at hafter
  by_cases h4 : 4 = n
  · subst h4
    obtain rfl : t = value := Option.some.inj (ht.symm.trans hvalue)
    have hfit := hfits (.inr rfl)
    obtain rfl := hensure t kt hfit hkt
    have hlt := (Array.getElem?_eq_some_iff.mp ht).1
    rw [if_pos rfl, if_pos (by simpa using hlt)] at hafter
    exact Option.some.inj hafter ▸ hkeeps kt Prod.snd hfit
  · rw [if_neg h4] at hafter
    by_cases h3 : 3 = n
    · subst h3
      obtain rfl : r = value := Option.some.inj (hr.symm.trans hvalue)
      have hfit := hfits (.inl rfl)
      obtain rfl := hensure r kr hfit hkr
      have hlt := (Array.getElem?_eq_some_iff.mp hr).1
      rw [if_pos rfl, if_pos hlt] at hafter
      exact Option.some.inj hafter ▸ hkeeps kr Prod.fst hfit
    · rw [if_neg h3, hvalue] at hafter
      exact Option.some.inj hafter ▸ .refl value

end Setting

namespace Machine

variable {σ : Type} {constants : Array Value} {machine next : Machine σ} {instruction : Instruction}
  {mask : Mask} {i : Nat}

theorem compute_keeps {op : PointOp} {type : Option ElementType} {result first last : Address}
    (hmask : machine.masks.active = .ok (some mask)) (hi : mask.getD i false = false)
    (h : machine.compute constants instruction op type result first last = .ok next) :
    machine.registers.Keeps i next.registers := by
  obtain ⟨_, _, _, _, _, registers, -, -, -, -, -, -, -, hcommit, rfl⟩ := compute_eq_ok.mp h
  exact Registers.commit_keeps hmask hi hcommit

theorem assign_keeps {update : Update} {target source : Address}
    (hmask : machine.masks.active = .ok (some mask)) (hi : mask.getD i false = false)
    (h : machine.assign constants instruction update target source = .ok next) :
    machine.registers.Keeps i next.registers := by
  obtain ⟨destination, value, written, active, floats, registers, -, htarget, -, -, hwritten,
    ⟨hshape, -⟩, hactive, hfloats, hput, rfl⟩ := assign_eq_ok.mp h
  obtain ⟨hstorage, hwidth⟩ := Value.shape?_eq_some.mp hshape
  refine (Registers.Keeps.refl _).put hput fun slot old hslot hold => ?_
  subst hslot
  obtain rfl : destination = old := by
    rw [Registers.target, fetch_eq_ok, hold] at htarget
    exact (Option.some.inj htarget).symm
  unfold shaped at hwritten
  split at hwritten
  next hreshaped =>
    -- a symbol is given a new shape only if it holds nothing
    have hempty : destination.isEmpty = true := by simpa using hreshaped.2
    exact .of_isEmpty hempty
  next =>
    obtain rfl := Except.ok.inj hwritten
    refine .of_floats fun hvarying => ?_
    obtain ⟨-, rfl⟩ := Update.run_eq_ok.mp hfloats
    rw [hvarying] at hstorage
    unfold assignmentMask at hactive
    rw [hstorage, hmask] at hactive
    obtain rfl := Except.ok.inj hactive
    refine cutFloats_rewriteAt_eq_self fun c hc => ?_
    rw [hwidth, block_div hc, Update.isWritten, hstorage, isActiveAt_some, hi, Bool.and_false]

/-- The outputs of a call of `fresnel` that are symbols hold varying floats already. -/
def OutputsFit (machine : Machine σ) (function : Builtin) (addresses : List Address) : Prop :=
  function = .fresnel → ∀ n slot, n = 3 ∨ n = 4 → addresses[n]? = some (.symbol slot) →
    ∃ value, machine.registers.symbols[slot]? = some value ∧
      value.fits .float .varying machine.points = true

theorem call_keeps {scene : Scene} {function : Builtin} {result : Address}
    {addresses : List Address} (hmask : machine.masks.active = .ok (some mask))
    (hi : mask.getD i false = false) (hfits : machine.OutputsFit function addresses)
    (h : machine.call constants scene function result addresses = .ok next) :
    machine.registers.Keeps i next.registers := by
  obtain ⟨arguments, active, reply, registers, harguments, -, hactive, hrun, hreplied, rfl⟩ :=
    call_eq_ok.mp h
  obtain rfl : some mask = active := Except.ok.inj (hmask.symm.trans hactive)
  obtain ⟨-, harguments⟩ := mapM_eq_ok.mp harguments
  cases reply with
  | result value => exact Registers.commit_keeps hmask hi hreplied
  | arguments values =>
    -- every register is put back from its first place in the list, where its own value was passed
    refine foldlM_invariant (machine.registers.Keeps i) (.refl _) ?_ hreplied
    rintro registers ⟨address, n⟩ next hmem hkeeps hput
    have haddress : addresses[n]? = some address := List.mk_mem_zipIdx_iff_getElem?.mp hmem
    dsimp only at hput
    split at hput
    · obtain rfl := pure_eq_ok.mp hput
      exact hkeeps
    next hfirst =>
      obtain ⟨after, hafter, hput⟩ := bind_eq_ok.mp hput
      refine hkeeps.put hput fun slot old hslot hold => ?_
      subst hslot
      obtain ⟨value, hvalue, hargument⟩ := harguments n (.symbol slot, n) (by simp [haddress])
      have hread : machine.argument constants function result addresses n (.symbol slot)
          = .ok old := by
        rw [Bool.or_eq_true, not_or] at hfirst
        rw [argument, if_neg hfirst.1, if_neg hfirst.2, Registers.read, fetch_eq_ok, hold]
      obtain rfl : old = value := Except.ok.inj (hread.symm.trans hargument)
      rw [fetch_eq_ok] at hafter
      have hpassed : arguments.toArray[n]? = some old := by simpa using hvalue
      rcases run_arguments hrun with ⟨axis, rfl, hwrite⟩ | ⟨rfl, hwrite⟩
      · exact Setting.setComponent_keeps rfl hi hwrite hpassed hafter
      · refine Setting.fresnel_keeps rfl hi hwrite hpassed (fun hn => ?_) hafter
        obtain ⟨value, hvalue, hfit⟩ := hfits rfl n slot hn haddress
        rw [hold] at hvalue
        exact Option.some.inj hvalue ▸ hfit

end Machine

/-! ### Masks that leave a point out -/

namespace MaskStack

variable {d i : Nat} {masks next : MaskStack}

/-- Level `d` of the stack, counted from the base, and all levels above it leave point `i` out. -/
def Hides (d i : Nat) (masks : MaskStack) : Prop :=
  ∀ k mask, masks.entries[k]? = some mask → d + k ≤ masks.depth → mask.getD i false = false

theorem hides_of_top {mask : Mask} (hdepth : masks.depth = d) (htop : masks.top = .ok mask)
    (hi : mask.getD i false = false) : masks.Hides d i := by
  intro k mask' hmask hk
  obtain rfl : k = 0 := by omega
  obtain rfl : mask = mask' := Option.some.inj ((top_eq_ok.mp htop).symm.trans hmask)
  exact hi

theorem Hides.active (h : masks.Hides d i) (hd : 2 ≤ d) (hdepth : d ≤ masks.depth) :
    ∃ mask, masks.active = .ok (some mask) ∧ mask.getD i false = false := by
  obtain ⟨points, entries⟩ := masks
  match entries, hdepth with
  | [], hdepth => exact absurd hdepth (by simp [depth]; omega)
  | [_], hdepth => exact absurd hdepth (by simp [depth]; omega)
  | top :: enclosing :: rest, hdepth => exact ⟨top, rfl, h 0 top rfl (by omega)⟩

/-- A point that is left out is so in every conditional inside. -/
theorem Hides.generate {predicate : Value} (h : masks.Hides d i) (hdepth : d ≤ masks.depth)
    (hnext : masks.generate predicate = .ok next) : next.Hides d i := by
  obtain ⟨-, -, top, mask, htop, hmask, rfl⟩ := generate_eq_ok.mp hnext
  obtain ⟨-, hmask⟩ := tabulate_eq_ok.mp hmask
  intro k mask' hmask' hk
  cases k with
  | zero =>
    obtain rfl : mask = mask' := by simpa using hmask'
    have hout := h 0 top (top_eq_ok.mp htop) (by omega)
    rw [Array.getD_eq_getD_getElem?] at hout ⊢
    cases hb : mask[i]? with
    | none => rfl
    | some b =>
      rcases selected_eq_ok.mp (hmask i b hb) with ⟨-, rfl⟩ | ⟨hactive, -⟩
      · rfl
      · simp [hactive] at hout
  | succ k =>
    have hk : d + k ≤ masks.depth := by simpa [depth, ← Nat.add_assoc] using hk
    exact h k mask' hmask' hk

/-- Turning over a conditional inside leaves the point out, since the mask around it does. -/
theorem Hides.invert (h : masks.Hides d i) (hdepth : d < masks.depth)
    (hnext : masks.invert = .ok next) : next.Hides d i := by
  obtain ⟨top, enclosing, rest, hentries, rfl⟩ := invert_eq_ok.mp hnext
  have hlength : masks.depth = rest.length + 2 := by simp [depth, hentries]
  intro k mask hmask hk
  cases k with
  | zero =>
    obtain rfl : otherBranch top enclosing = mask := by simpa using hmask
    have hout := h 1 enclosing (by simp [hentries]) (by omega)
    rw [Array.getD_eq_getD_getElem?] at hout ⊢
    rw [otherBranch, Array.getElem?_zipWith]
    cases htop : top[i]? <;> cases henclosing : enclosing[i]? <;> simp_all
  | succ k =>
    refine h (k + 1) mask (by simpa [hentries] using hmask) ?_
    rw [hlength]
    simpa [depth] using hk

theorem Hides.clear (h : masks.Hides d i) (hnext : masks.clear = .ok next) : next.Hides d i := by
  obtain ⟨top, enclosing, rest, hentries, rfl⟩ := clear_eq_ok.mp hnext
  intro k mask hmask hk
  refine h (k + 1) mask (by simpa [hentries] using hmask) ?_
  simp only [depth, hentries, List.length_cons] at hk ⊢
  omega

end MaskStack

/-! ### Stretches of execution -/

namespace Machine

variable {σ : Type} {renderer : Renderer σ} {shader : Shader} {machine next : Machine σ}
  {command : Command} {d i : Nat}

/-- The command leaves the point alone that level `d` of the masks hides: other shaders are not
    evaluated, level `d` itself is not turned over, and `fresnel` need not make varying floats of
    its outputs. -/
def Spares (d : Nat) (machine : Machine σ) : Command → Prop
  | .evaluate _ => False
  | .invertMask => machine.masks.depth ≠ d
  | .call function _ addresses => machine.OutputsFit function addresses
  | _ => True

/-- **One command.**  A point that is hidden keeps its elements and stays hidden. -/
theorem Performed.keeps {instruction : Instruction} {flow : Flow}
    (h : Performed renderer shader instruction machine command flow next) (hd : 2 ≤ d)
    (hdepth : d ≤ machine.masks.depth) (hhides : machine.masks.Hides d i)
    (hspares : machine.Spares d command) :
    machine.registers.Keeps i next.registers ∧ next.masks.Hides d i := by
  obtain ⟨mask, hmask, hi⟩ := hhides.active hd hdepth
  cases h with
  | nothing | halt | pass | jump => exact ⟨.refl _, hhides⟩
  | discard registers h =>
    obtain ⟨temporaries, -, rfl⟩ : ∃ temporaries,
        Registers.emptyTemporaries (max machine.registers.temporaries.size 0) = .ok temporaries ∧
        { machine.registers with temporaries := temporaries } = registers := by
      simpa [Registers.clearTemporaries] using h
    exact ⟨.of_symbols rfl, hhides⟩
  | clearMask masks h => exact ⟨.refl _, hhides.clear h⟩
  | generateMask predicate value masks _ h => exact ⟨.refl _, hhides.generate hdepth h⟩
  | invertMask masks h =>
    exact ⟨.refl _, hhides.invert (Nat.lt_of_le_of_ne hdepth (Ne.symm hspares)) h⟩
  | compute _ _ _ _ _ _ h =>
    obtain ⟨registers, rfl⟩ := eq_of_compute h
    exact ⟨compute_keeps hmask hi h, hhides⟩
  | assign _ _ _ _ h =>
    obtain ⟨registers, rfl⟩ := eq_of_assign h
    exact ⟨assign_keeps hmask hi h, hhides⟩
  | call _ _ _ _ h =>
    obtain ⟨registers, rfl⟩ := eq_of_call h
    exact ⟨call_keeps hmask hi hspares h, hhides⟩
  | evaluate => exact hspares.elim

/-- A stretch of execution inside the conditional of level `d`: instructions that spare the points it
    leaves out, and never fewer than `d` masks. -/
inductive Shielded (renderer : Renderer σ) (shader : Shader) (d : Nat) :
    Machine σ → Machine σ → Prop
  | start (machine : Machine σ) : Shielded renderer shader d machine machine
  | step {first machine next : Machine σ} {command : Command}
      (before : Shielded renderer shader d first machine)
      (executes : Executes renderer shader command machine next)
      (spares : machine.Spares d command) (inside : d ≤ next.masks.depth) :
      Shielded renderer shader d first next

/-- **A whole stretch.**  A point that is hidden keeps its elements and stays hidden. -/
theorem Shielded.keeps {first last : Machine σ} (h : Shielded renderer shader d first last)
    (hd : 2 ≤ d) (hdepth : d ≤ first.masks.depth) (hhides : first.masks.Hides d i) :
    first.registers.Keeps i last.registers ∧ last.masks.Hides d i ∧ d ≤ last.masks.depth := by
  induction h with
  | start => exact ⟨.refl _, hhides, hdepth⟩
  | step _ executes spares inside ih =>
    obtain ⟨hkeeps, hhides, hdepth⟩ := ih
    obtain ⟨_, _, last, offset, hperformed, rfl⟩ := executes.performed
    obtain ⟨hkeeps', hhides'⟩ := hperformed.keeps hd hdepth hhides spares
    exact ⟨hkeeps.trans hkeeps', hhides', inside⟩

/-- **Inactive points are never written.**  Let a point be inactive in the top mask inside some
    conditional.  However long execution goes on in there, the point keeps its element of every
    varying symbol. -/
theorem Shielded.cut_unchanged {first last : Machine σ} (h : Shielded renderer shader d first last)
    (hd : 2 ≤ d) (hdepth : first.masks.depth = d) {mask : Mask}
    (htop : first.masks.top = .ok mask) (hi : mask.getD i false = false) {slot : Nat} {value : Value}
    (hvalue : first.registers.symbols[slot]? = some value) (hstorage : value.storage = .varying)
    (hsize : i < value.size) :
    ∃ after, last.registers.symbols[slot]? = some after ∧ after.cut i = value.cut i := by
  obtain ⟨hkeeps, -, -⟩ := h.keeps hd (Nat.le_of_eq hdepth.symm) (MaskStack.hides_of_top hdepth htop hi)
  obtain ⟨after, hafter, hsame⟩ := hkeeps slot value hvalue
  exact ⟨after, hafter, (hsame hstorage hsize).1⟩

/-- A shader that assigns one to its only symbol, a varying float. -/
def assignOne : Shader where
  kind := .surface
  name := "one"
  code := #[0x00211117, 0x40000000, 0]
  constants := #[.uniformFloat 1]
  symbols := ⟨#[⟨"x", .global, .float, .varying, none⟩]⟩
  temporaries := 0

/-- A machine over two points about to run it, inside a conditional that leaves the second point
    out. -/
def halfHidden (floats : Buffer) (ip executed : Nat) : Machine Unit where
  config := {}
  ip := ip
  width := 2
  height := 1
  masks := ⟨2, [#[true, false], #[true, true]]⟩
  registers := ⟨#[.varyingFloat floats], #[]⟩
  bound := #[true]
  executed := executed
  world := ()

theorem Shielded.cut_unchanged_halfHidden :
    Shielded (.ofScene .still) assignOne 2 (halfHidden #[0, 0] 0 0) (halfHidden #[1, 0] 3 1) ∧
      ∃ after, (halfHidden #[1, 0] 3 1).registers.symbols[0]? = some after ∧
        after.cut 1 = (Value.varyingFloat #[0, 0]).cut 1 := by
  have hexecutes : Executes (.ofScene .still) assignOne
      (.assign ⟨.replace, ⟨.varying, .one⟩, ⟨.uniform, .one⟩⟩ (.symbol 0) (.constant 0))
      (halfHidden #[0, 0] 0 0) (halfHidden #[1, 0] 3 1) :=
    ⟨⟨0x00211117, ⟨.assign .replace, ⟨0x2111⟩⟩, rfl, rfl, rfl⟩, 0x00211117, .next, rfl, rfl⟩
  have hrun : Shielded (.ofScene .still) assignOne 2 (halfHidden #[0, 0] 0 0)
      (halfHidden #[1, 0] 3 1) :=
    .step (.start _) hexecutes trivial (by decide)
  exact ⟨hrun, hrun.cut_unchanged (by decide) rfl rfl rfl rfl rfl (by decide)⟩

end Machine

end Shading
