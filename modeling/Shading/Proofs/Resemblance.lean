import Shading.Proofs.Effects

namespace Shading

/-!
# Machines that differ in varying floats

Two machines that run the same code over grids of the same dimensions, with the same in all uniform
registers and anything of the same type in the varying ones.  Their masks may differ as well, since
masks are made of varying values.  No command tells such machines apart in a uniform register: what it
leaves there is computed from uniform registers alone, and under no mask.

* `Value.Resembles` — values that are the same if they are uniform;
* `Registers.Resembles`, `Machine.Resembles` — registers and machines that hold such values;
* `Builtin.run_resembles` — what builtins reply to such arguments;
* `Machine.Performed.resembles` — a command that both machines perform.
-/

variable {points : Nat}

/-! ### Values -/

namespace Value

variable {a b a' b' : Value}

/-- Two values of one type, storage and size, which are the same if they are uniform. -/
structure Resembles (a b : Value) : Prop where
  type_eq : a.type = b.type
  storage_eq : a.storage = b.storage
  size_eq : a.size = b.size
  uniform : a.storage = .uniform → a = b

theorem Resembles.refl (a : Value) : a.Resembles a := ⟨rfl, rfl, rfl, fun _ => rfl⟩

theorem Resembles.isEmpty_eq (h : a.Resembles b) : a.isEmpty = b.isEmpty := by
  rw [isEmpty, isEmpty, h.size_eq]

theorem Resembles.shape?_eq (h : a.Resembles b) : a.shape? = b.shape? := by
  rw [shape?, shape?, components, components, h.type_eq, h.storage_eq]

/-- Varying values of one type and size may have any floats. -/
theorem Resembles.of_fits {type : ElementType} {size : Nat} (ha : a.fits type .varying size = true)
    (hb : b.fits type .varying size = true) : a.Resembles b := by
  obtain ⟨htype, hstorage, hsize⟩ := fits_iff.mp ha
  obtain ⟨htype', hstorage', hsize'⟩ := fits_iff.mp hb
  refine ⟨htype.trans htype'.symm, hstorage.trans hstorage'.symm, hsize.trans hsize'.symm, ?_⟩
  intro huniform
  cases hstorage.symm.trans huniform

/-- Floats that are overwritten have to be the same in uniform values only. -/
theorem Resembles.with_floats {floats floats' : Buffer} (h : a.Resembles b)
    (hfloats : a.storage = .uniform → floats = floats') :
    { a with floats := floats }.Resembles { b with floats := floats' } where
  type_eq := h.type_eq
  storage_eq := h.storage_eq
  size_eq := h.size_eq
  uniform huniform := by
    obtain rfl := h.uniform huniform
    rw [hfloats huniform]

theorem Resembles.ensure {type : ElementType} {storage : Storage} {size : Nat} (h : a.Resembles b)
    (ha : a.ensure type storage size = .ok a') (hb : b.ensure type storage size = .ok b') :
    a'.Resembles b' := by
  have hfits : a.fits type storage size = b.fits type storage size := by
    rw [fits, fits, h.type_eq, h.storage_eq, h.size_eq]
  unfold Value.ensure at ha hb
  rw [← hfits] at hb
  split at ha
  next hfits =>
    rw [if_pos hfits] at hb
    obtain rfl := Except.ok.inj ha
    obtain rfl := Except.ok.inj hb
    exact h
  next hfits =>
    -- both are given the same zeros
    rw [if_neg hfits] at hb
    obtain rfl := Except.ok.inj (ha.symm.trans hb)
    exact .refl a'

/-- Arrays of values that resemble each other, place by place. -/
structure AllResemble (xs ys : Array Value) : Prop where
  size_eq : xs.size = ys.size
  resembles : ∀ (n : Nat) x y, xs[n]? = some x → ys[n]? = some y → x.Resembles y

namespace AllResemble

variable {xs ys : Array Value}

theorem refl (xs : Array Value) : AllResemble xs xs := by
  refine ⟨rfl, fun n x y hx hy => ?_⟩
  obtain rfl := Option.some.inj (hx.symm.trans hy)
  exact .refl x

theorem set {n : Nat} (h : AllResemble xs ys) (hab : a.Resembles b) :
    AllResemble (xs.setIfInBounds n a) (ys.setIfInBounds n b) where
  size_eq := by rw [Array.size_setIfInBounds, Array.size_setIfInBounds, h.size_eq]
  resembles m x y hx hy := by
    rw [Array.getElem?_setIfInBounds] at hx hy
    rw [h.size_eq] at hx
    split at hx
    next hm =>
      subst hm
      split at hx
      next hlt =>
        rw [if_pos rfl, if_pos hlt] at hy
        rwa [← Option.some.inj hx, ← Option.some.inj hy]
      next => cases hx
    next hm =>
      rw [if_neg hm] at hy
      exact h.resembles m x y hx hy

theorem fetch (h : AllResemble xs ys) (n : Nat) :
    (∃ x y, Shading.fetch xs n = .ok x ∧ Shading.fetch ys n = .ok y ∧ x.Resembles y) ∨
      Shading.fetch xs n = .error .outOfRange ∧ Shading.fetch ys n = .error .outOfRange := by
  by_cases hn : n < xs.size
  · have hx := Array.getElem?_eq_getElem hn
    have hy := Array.getElem?_eq_getElem (h.size_eq ▸ hn)
    exact .inl ⟨_, _, fetch_eq_ok.mpr hx, fetch_eq_ok.mpr hy, h.resembles n _ _ hx hy⟩
  · refine .inr ⟨?_, ?_⟩
    · rw [fetch_eq, Array.getElem?_eq_none (Nat.le_of_not_lt hn)]
    · rw [fetch_eq, Array.getElem?_eq_none (h.size_eq ▸ Nat.le_of_not_lt hn)]

/-- What resembling values have in common, arrays of them have in common. -/
theorem map_eq {α : Type} {f : Value → α} (h : AllResemble xs ys)
    (hf : ∀ x y : Value, x.Resembles y → f x = f y) : xs.toList.map f = ys.toList.map f := by
  refine List.ext_getElem (by simp [h.size_eq]) fun n hx hy => ?_
  rw [List.length_map, Array.length_toList] at hx hy
  rw [List.getElem_map, List.getElem_map]
  exact hf _ _ (h.resembles n _ _ (Array.getElem?_eq_getElem hx) (Array.getElem?_eq_getElem hy))

theorem widestOf_eq (h : AllResemble xs ys) : widestOf xs.toList = widestOf ys.toList := by
  have hstorages : ∀ values : List Value,
      widestOf values = (values.map Value.storage).foldl Storage.widest .uniform := by
    intro values
    rw [List.foldl_map, widestOf]
  rw [hstorages, hstorages, h.map_eq fun _ _ => Resembles.storage_eq]

/-- Uniform values are the same. -/
theorem eq_of_uniform (h : AllResemble xs ys) (huniform : ∀ x ∈ xs.toList, x.storage = .uniform) :
    xs = ys := by
  refine Array.ext h.size_eq fun n hx hy => ?_
  have hmem : xs[n] ∈ xs.toList := Array.mem_toList_iff.mpr (Array.getElem_mem hx)
  exact (h.resembles n _ _ (Array.getElem?_eq_getElem hx) (Array.getElem?_eq_getElem hy)).uniform
    (huniform _ hmem)

end AllResemble

end Value

/-! ### Operations and assignments -/

namespace PointOp

variable {op : PointOp} {a b a' b' : Value}

theorem resultType_resembles (ha : a.Resembles a') (hb : b.Resembles b') :
    op.resultType a b = op.resultType a' b' := by
  unfold resultType Value.components
  rw [ha.type_eq, hb.type_eq]

/-- A uniform result is computed from uniform operands. -/
theorem run_resembles {result : Buffer} (hfits : op.Fits) (hsuits : op.Suits points a b)
    (ha : a.Resembles a') (hb : b.Resembles b') (hstorage : op.storage = .uniform) :
    op.run result a.floats b.floats points = op.run result a'.floats b'.floats points := by
  have hshape : ∀ {value : Value} {shape : Shape}, value.HasShape points shape →
      shape.storage = .uniform → value.storage = .uniform := by
    intro value shape hvalue huniform
    rw [← (Value.shape?_eq_some.mp hvalue.shape_eq).1, huniform]
  cases op with
  | arithmetic _ lhs rhs | test _ lhs rhs =>
    obtain ⟨hlhs, hrhs⟩ : lhs.storage = .uniform ∧ rhs.storage = .uniform := by
      unfold storage at hstorage
      cases hl : lhs.storage <;> cases hr : rhs.storage <;> simp_all [Storage.widest]
    obtain rfl := ha.uniform (hshape hsuits.1 hlhs)
    obtain rfl := hb.uniform (hshape hsuits.2 hrhs)
    rfl
  | negate shape =>
    obtain rfl := ha.uniform (hshape hsuits hstorage)
    rfl
  | copy result source =>
    have hsource : source.storage = .uniform := by
      refine source.storage.uniform_or_varying.resolve_right fun hvarying => ?_
      cases (hfits.1 hvarying).symm.trans hstorage
    obtain rfl := ha.uniform (hshape hsuits hsource)
    rfl
  | transform storage =>
    obtain rfl := ha.uniform hsuits.1.2
    obtain rfl := hb.uniform (hshape hsuits.2 hstorage)
    rfl

end PointOp

/-! ### Builtins -/

namespace Setting

variable {scene : Scene} {width height : Nat} {mask mask' : Option Mask}
  {arguments arguments' values values' : Array Value}

/-- A component of a uniform value is written under no mask. -/
theorem writeComponent_uniform {p x : Value} {axis : Axis} (h : p.storage = .uniform) :
    writeComponent ⟨scene, width, height, mask⟩ p x axis
      = writeComponent ⟨scene, width, height, mask'⟩ p x axis := by
  have hreaches : ∀ mask i, reaches ⟨scene, width, height, mask⟩ p i = .ok true := by
    intro mask i
    rw [reaches, if_neg (by simp [Value.isVarying, h])]
  funext i floats
  rw [writeComponent, writeComponent, hreaches, hreaches]

theorem setComponent_resembles {axis : Axis} (harguments : Value.AllResemble arguments arguments')
    (h : Setting.setComponent ⟨scene, width, height, mask⟩ arguments axis = .ok values)
    (h' : Setting.setComponent ⟨scene, width, height, mask'⟩ arguments' axis = .ok values') :
    Value.AllResemble values values' := by
  obtain ⟨p, x, floats, hp, hx, -, hstorage, hfloats, rfl⟩ := setComponent_eq_ok.mp h
  obtain ⟨p', x', floats', hp', hx', -, -, hfloats', rfl⟩ := setComponent_eq_ok.mp h'
  have hpresembles := harguments.resembles 0 p p' hp hp'
  refine harguments.set (hpresembles.with_floats fun huniform => ?_)
  -- a uniform value takes a component from a uniform value
  have hxuniform : x.storage = .uniform := by
    refine x.storage.uniform_or_varying.resolve_right fun hvarying => ?_
    have hnot := hstorage (by simp [Value.isUniform, huniform])
    simp [Value.isVarying, hvarying] at hnot
  obtain rfl := hpresembles.uniform huniform
  obtain rfl := (harguments.resembles 1 x x' hx hx').uniform hxuniform
  rw [@writeComponent_uniform _ _ _ mask mask' _ _ _ huniform, hfloats'] at hfloats
  exact (Except.ok.inj hfloats).symm

theorem fresnel_resembles (harguments : Value.AllResemble arguments arguments')
    (h : Setting.fresnel ⟨scene, width, height, mask⟩ arguments = .ok values)
    (h' : Setting.fresnel ⟨scene, width, height, mask'⟩ arguments' = .ok values') :
    Value.AllResemble values values' := by
  obtain ⟨_, _, _, _, _, kr, kt, floats, -, -, -, -, -, -, -, hkr, hkt, -, rfl⟩ := fresnel_eq_ok.mp h
  obtain ⟨_, _, _, _, _, kr', kt', floats', -, -, -, -, -, -, -, hkr', hkt', -, rfl⟩ :=
    fresnel_eq_ok.mp h'
  have hfits : ∀ {k k' out out' : Value} (floats floats' : Buffer),
      k.ensure .float .varying (width * height) = .ok out →
      k'.ensure .float .varying (width * height) = .ok out' →
      { out with floats := floats }.Resembles { out' with floats := floats' } := by
    intro k k' out out' floats floats' hout hout'
    have hresembles := Value.Resembles.of_fits (Value.fits_of_ensure hout) (Value.fits_of_ensure hout')
    refine hresembles.with_floats fun huniform => ?_
    cases (Value.fits_iff.mp (Value.fits_of_ensure hout)).2.1.symm.trans huniform
  exact (harguments.set (hfits floats.1 floats'.1 hkr hkr')).set (hfits floats.2 floats'.2 hkt hkt')

end Setting

/-- Replies that resemble each other. -/
inductive Reply.Resembles : Reply → Reply → Prop
  | result {value value' : Value} (h : value.Resembles value') :
      Resembles (.result value) (.result value')
  | arguments {values values' : Array Value} (h : Value.AllResemble values values') :
      Resembles (.arguments values) (.arguments values')

namespace Builtin

variable {function : Builtin} {scene : Scene} {width height : Nat} {mask mask' : Option Mask}
  {arguments arguments' : Array Value} {value value' : Value} {reply reply' : Reply}

/-- Results do not depend on masks. -/
theorem run_remask
    (h : function.run ⟨scene, width, height, mask⟩ arguments = .ok (.result value)) :
    function.run ⟨scene, width, height, mask'⟩ arguments = .ok (.result value) := by
  cases function with
  | setComponent axis =>
    obtain ⟨_, -, hvalue⟩ := map_eq_ok.mp h
    cases hvalue
  | fresnel =>
    obtain ⟨_, -, hvalue⟩ := map_eq_ok.mp h
    cases hvalue
  | _ => exact h

theorem result_resembles (hcount : arguments.size ≤ function.arity.2)
    (harguments : Value.AllResemble arguments arguments')
    (hover : Value.AllOver (width * height) arguments)
    (hover' : Value.AllOver (width * height) arguments')
    (h : function.run ⟨scene, width, height, mask⟩ arguments = .ok (.result value))
    (h' : function.run ⟨scene, width, height, mask'⟩ arguments' = .ok (.result value')) :
    value.Resembles value' := by
  have hreturns := @run_returns function ⟨scene, width, height, mask⟩ _ _ hcount hover h
  have hreturns' := @run_returns function ⟨scene, width, height, mask'⟩ _ _
    (harguments.size_eq ▸ hcount) hover' h'
  obtain huniform | hvarying := value.storage.uniform_or_varying
  · -- all arguments are uniform then, and the same
    have hwidest := hreturns.storage_eq.symm.trans huniform
    obtain rfl := harguments.eq_of_uniform (widestOf_eq_uniform.mp hwidest)
    have hsame := Except.ok.inj ((run_remask h).symm.trans h')
    obtain rfl : value = value' := by simpa using hsame
    exact .refl value
  · have hstorage : value.storage = value'.storage := by
      rw [hreturns.storage_eq, hreturns'.storage_eq, harguments.widestOf_eq]
    have htype : some value.type = some value'.type := by
      rw [← hreturns.type_eq, ← hreturns'.type_eq,
        harguments.map_eq fun _ _ => Value.Resembles.type_eq]
    refine ⟨Option.some.inj htype, hstorage, ?_, fun huniform => ?_⟩
    · have hvalue := @run_over function ⟨scene, width, height, mask⟩ _ _ hover h
      have hvalue' := @run_over function ⟨scene, width, height, mask'⟩ _ _ hover' h'
      rw [Value.Over.size_of_varying hvalue hvarying,
        Value.Over.size_of_varying hvalue' (hstorage ▸ hvarying)]
      rfl
    · cases hvarying.symm.trans huniform

/-- **Builtins** reply alike to arguments that resemble each other, under any two masks. -/
theorem run_resembles (hcount : arguments.size ≤ function.arity.2)
    (harguments : Value.AllResemble arguments arguments')
    (hover : Value.AllOver (width * height) arguments)
    (hover' : Value.AllOver (width * height) arguments')
    (h : function.run ⟨scene, width, height, mask⟩ arguments = .ok reply)
    (h' : function.run ⟨scene, width, height, mask'⟩ arguments' = .ok reply') :
    reply.Resembles reply' := by
  cases function with
  | setComponent axis =>
    obtain ⟨values, hvalues, rfl⟩ := map_eq_ok.mp h
    obtain ⟨values', hvalues', rfl⟩ := map_eq_ok.mp h'
    exact .arguments (Setting.setComponent_resembles harguments hvalues hvalues')
  | fresnel =>
    obtain ⟨values, hvalues, rfl⟩ := map_eq_ok.mp h
    obtain ⟨values', hvalues', rfl⟩ := map_eq_ok.mp h'
    exact .arguments (Setting.fresnel_resembles harguments hvalues hvalues')
  | _ =>
    obtain ⟨value, hvalue, rfl⟩ := map_eq_ok.mp h
    obtain ⟨value', hvalue', rfl⟩ := map_eq_ok.mp h'
    exact .result (result_resembles hcount harguments hover hover' h h')

end Builtin

/-! ### Registers -/

namespace Registers

variable {registers registers' next next' : Registers} {constants : Array Value} {address : Address}
  {value value' : Value} {masks masks' : MaskStack}

/-- Registers that hold values that resemble each other. -/
structure Resembles (registers registers' : Registers) : Prop where
  symbols : Value.AllResemble registers.symbols registers'.symbols
  temporaries : Value.AllResemble registers.temporaries registers'.temporaries

namespace Resembles

theorem read (h : registers.Resembles registers')
    (hvalue : registers.read constants address = .ok value)
    (hvalue' : registers'.read constants address = .ok value') : value.Resembles value' := by
  cases address with
  | constant n =>
    obtain rfl := Except.ok.inj (hvalue.symm.trans hvalue')
    exact .refl value
  | symbol n => exact h.symbols.resembles n _ _ (fetch_eq_ok.mp hvalue) (fetch_eq_ok.mp hvalue')
  | temporary n => exact h.temporaries.resembles n _ _ (fetch_eq_ok.mp hvalue) (fetch_eq_ok.mp hvalue')

theorem target (h : registers.Resembles registers') (hvalue : registers.target address = .ok value)
    (hvalue' : registers'.target address = .ok value') : value.Resembles value' := by
  cases address with
  | constant n => cases hvalue
  | symbol n => exact h.symbols.resembles n _ _ (fetch_eq_ok.mp hvalue) (fetch_eq_ok.mp hvalue')
  | temporary n => exact h.temporaries.resembles n _ _ (fetch_eq_ok.mp hvalue) (fetch_eq_ok.mp hvalue')

theorem claim (h : registers.Resembles registers') (hvalue : registers.claim address = .ok value)
    (hvalue' : registers'.claim address = .ok value') : value.Resembles value' := by
  cases address with
  | symbol n =>
    obtain rfl := Except.ok.inj (hvalue.symm.trans hvalue')
    exact .refl value
  | constant n => cases hvalue
  | temporary n => exact h.temporaries.resembles n _ _ (fetch_eq_ok.mp hvalue) (fetch_eq_ok.mp hvalue')

theorem put (h : registers.Resembles registers') (hresembles : value.Resembles value')
    (hput : registers.put address value = .ok next)
    (hput' : registers'.put address value' = .ok next') : next.Resembles next' := by
  cases address with
  | constant n => exact (put_constant.mp hput).elim
  | symbol n =>
    obtain ⟨-, rfl⟩ := put_symbol.mp hput
    obtain ⟨-, rfl⟩ := put_symbol.mp hput'
    exact ⟨h.symbols.set hresembles, h.temporaries⟩
  | temporary n =>
    obtain ⟨-, rfl⟩ := put_temporary.mp hput
    obtain ⟨-, rfl⟩ := put_temporary.mp hput'
    exact ⟨h.symbols, h.temporaries.set hresembles⟩

theorem clearTemporaries {count : Nat} (h : registers.Resembles registers')
    (hclear : registers.clearTemporaries count = .ok next)
    (hclear' : registers'.clearTemporaries count = .ok next') : next.Resembles next' := by
  obtain ⟨-, rfl⟩ := clearTemporaries_eq_ok.mp hclear
  obtain ⟨-, rfl⟩ := clearTemporaries_eq_ok.mp hclear'
  rw [h.temporaries.size_eq]
  exact ⟨h.symbols, .refl _⟩

end Resembles

/-- Symbols that resemble each other take results that do in the same way. -/
theorem Takes.resembles {target target' taken taken' : Value} (htarget : target.Resembles target')
    (hvalue : value.Resembles value') (h : Takes masks points target value taken)
    (h' : Takes masks' points target' value' taken') : taken.Resembles taken' := by
  have hempty := htarget.isEmpty_eq
  have hstorage := htarget.storage_eq
  cases h with
  | empty hnothing =>
    cases h' with
    | empty | uniform => exact hvalue
    | varying _ _ _ hsomething => simp [hnothing, hsomething] at hempty
  | uniform hsomething huniform =>
    cases h' with
    | empty | uniform => exact hvalue
    | varying _ _ _ _ hvarying => simp [huniform, hvarying] at hstorage
  | varying _ _ _ hsomething hvarying =>
    cases h' with
    | empty hnothing => simp [hnothing, hsomething] at hempty
    | uniform _ huniform => simp [huniform, hvarying] at hstorage
    | varying =>
      refine htarget.with_floats fun huniform => ?_
      cases hvarying.symm.trans huniform

/-- **Results** that resemble each other are put where they belong, under any two masks. -/
theorem Resembles.commit (h : registers.Resembles registers') (hresembles : value.Resembles value')
    (hcommit : registers.commit masks points address value = .ok next)
    (hcommit' : registers'.commit masks' points address value' = .ok next') :
    next.Resembles next' := by
  cases address with
  | constant n => exact (commit_constant.mp hcommit).elim
  | temporary n =>
    exact h.put hresembles (put_temporary.mpr (commit_temporary.mp hcommit))
      (put_temporary.mpr (commit_temporary.mp hcommit'))
  | symbol n =>
    obtain ⟨target, taken, htarget, htakes, rfl⟩ := commit_symbol_eq_ok.mp hcommit
    obtain ⟨target', taken', htarget', htakes', rfl⟩ := commit_symbol_eq_ok.mp hcommit'
    have htargets := h.symbols.resembles n target target' htarget htarget'
    exact ⟨h.symbols.set (htakes.resembles htargets hresembles htakes'), h.temporaries⟩

end Registers

/-! ### Machines -/

/-- The command neither jumps nor asks the renderer. -/
def Command.isPlain : Command → Bool
  | .jump _ _ | .evaluate _ => false
  | _ => true

namespace Machine

variable {σ : Type} {renderer : Renderer σ} {shader : Shader} {constants : Array Value}
  {machine machine' next next' : Machine σ} {instruction : Instruction} {command : Command}
  {flow flow' : Flow}

/-- Two machines at the same place in the same code whose registers resemble each other.  Nothing is
    said of their masks. -/
structure Resembles (machine machine' : Machine σ) : Prop where
  config_eq : machine.config = machine'.config
  ip_eq : machine.ip = machine'.ip
  width_eq : machine.width = machine'.width
  height_eq : machine.height = machine'.height
  bound_eq : machine.bound = machine'.bound
  executed_eq : machine.executed = machine'.executed
  registers : machine.registers.Resembles machine'.registers

theorem Resembles.points_eq (h : machine.Resembles machine') : machine.points = machine'.points := by
  rw [points, points, h.width_eq, h.height_eq]

theorem Resembles.with_registers {registers registers' : Registers} (h : machine.Resembles machine')
    (hregisters : registers.Resembles registers') :
    { machine with registers := registers }.Resembles { machine' with registers := registers' } :=
  ⟨h.config_eq, h.ip_eq, h.width_eq, h.height_eq, h.bound_eq, h.executed_eq, hregisters⟩

theorem Resembles.with_masks {masks masks' : MaskStack} (h : machine.Resembles machine') :
    { machine with masks := masks }.Resembles { machine' with masks := masks' } :=
  ⟨h.config_eq, h.ip_eq, h.width_eq, h.height_eq, h.bound_eq, h.executed_eq, h.registers⟩

theorem Resembles.compute {op : PointOp} {type : Option ElementType} {result first last : Address}
    (h : machine.Resembles machine') (hfits : op.Fits)
    (hnext : machine.compute constants instruction op type result first last = .ok next)
    (hnext' : machine'.compute constants instruction op type result first last = .ok next') :
    next.Resembles next' := by
  obtain ⟨destination, a, b, fitted, floats, registers, -, hclaim, ha, hb, hsuits, hfitted, hfloats,
    hcommit, rfl⟩ := compute_eq_ok.mp hnext
  obtain ⟨destination', a', b', fitted', floats', registers', -, hclaim', ha', hb', -, hfitted',
    hfloats', hcommit', rfl⟩ := compute_eq_ok.mp hnext'
  have haresembles := h.registers.read ha ha'
  have hbresembles := h.registers.read hb hb'
  rw [← PointOp.resultType_resembles haresembles hbresembles, ← h.points_eq] at hfitted'
  rw [← h.points_eq] at hfloats' hcommit'
  have hfittedresembles := (h.registers.claim hclaim hclaim').ensure hfitted hfitted'
  refine h.with_registers (h.registers.commit (hfittedresembles.with_floats fun huniform => ?_) hcommit
    hcommit')
  have hstorage := (Value.fits_iff.mp (Value.fits_of_ensure hfitted)).2.1.symm.trans huniform
  obtain rfl := hfittedresembles.uniform huniform
  rw [PointOp.run_resembles hfits hsuits haresembles hbresembles hstorage, hfloats'] at hfloats
  exact (Except.ok.inj hfloats).symm

theorem shaped_resembles {update : Update} {target : Address}
    {destination destination' value value' written written' : Value}
    (hdestination : destination.Resembles destination') (hvalue : value.Resembles value')
    (h : shaped points update target destination value = .ok written)
    (h' : shaped points update target destination' value' = .ok written') :
    written.Resembles written' := by
  have hreshaped : IsReshaped update target destination' ↔ IsReshaped update target destination := by
    unfold IsReshaped
    rw [hdestination.isEmpty_eq, hdestination.shape?_eq]
  unfold shaped at h h'
  split at h
  next hyes =>
    rw [if_pos (hreshaped.mpr hyes), ← hvalue.type_eq] at h'
    obtain rfl := Except.ok.inj (h.symm.trans h')
    exact .refl written
  next hno =>
    rw [if_neg (hreshaped.not.mpr hno)] at h'
    obtain rfl := Except.ok.inj h
    obtain rfl := Except.ok.inj h'
    exact hdestination

theorem Resembles.assign {update : Update} {target source : Address} (h : machine.Resembles machine')
    (hfits : update.Fits)
    (hnext : machine.assign constants instruction update target source = .ok next)
    (hnext' : machine'.assign constants instruction update target source = .ok next') :
    next.Resembles next' := by
  obtain ⟨destination, value, written, mask, floats, registers, -, htarget, hvalue, hsource, hwritten,
    hshape, hmask, hfloats, hput, rfl⟩ := assign_eq_ok.mp hnext
  obtain ⟨destination', value', written', mask', floats', registers', -, htarget', hvalue', -,
    hwritten', -, hmask', hfloats', hput', rfl⟩ := assign_eq_ok.mp hnext'
  have hvalues := h.registers.read hvalue hvalue'
  rw [← h.points_eq] at hwritten' hfloats'
  have hwrittenresembles := shaped_resembles (h.registers.target htarget htarget') hvalues hwritten
    hwritten'
  refine h.with_registers
    (h.registers.put (hwrittenresembles.with_floats fun huniform => ?_) hput hput')
  -- a uniform destination takes a uniform source, under no mask
  have hdestination : update.destination.storage = .uniform :=
    (Value.shape?_eq_some.mp hshape.shape_eq).1.trans huniform
  have hstorage : value.storage = .uniform := by
    rw [← (Value.shape?_eq_some.mp hsource.shape_eq).1]
    refine update.source.storage.uniform_or_varying.resolve_right fun hvarying => ?_
    cases (hfits.1 hvarying).symm.trans hdestination
  rw [assignmentMask, hdestination] at hmask hmask'
  obtain rfl := Except.ok.inj (hmask.symm.trans hmask')
  obtain rfl := hwrittenresembles.uniform huniform
  obtain rfl := hvalues.uniform hstorage
  exact Except.ok.inj (hfloats.symm.trans hfloats')

theorem Resembles.arguments {function : Builtin} {result : Address} {addresses : List Address}
    {arguments arguments' : List Value} (h : machine.Resembles machine')
    (harguments : addresses.zipIdx.mapM (fun (address, n) =>
      machine.argument constants function result addresses n address) = .ok arguments)
    (harguments' : addresses.zipIdx.mapM (fun (address, n) =>
      machine'.argument constants function result addresses n address) = .ok arguments') :
    Value.AllResemble arguments.toArray arguments'.toArray := by
  obtain ⟨hlength, hall⟩ := mapM_eq_ok.mp harguments
  obtain ⟨hlength', hall'⟩ := mapM_eq_ok.mp harguments'
  refine ⟨hlength.symm.trans hlength', fun n value value' hvalue hvalue' => ?_⟩
  rw [List.getElem?_toArray] at hvalue hvalue'
  have hlt := (List.getElem?_eq_some_iff.mp hvalue).1
  have hentry := List.getElem?_eq_getElem (hlength.symm ▸ hlt)
  obtain ⟨given, hgiven, hargument⟩ := hall n _ hentry
  obtain ⟨given', hgiven', hargument'⟩ := hall' n _ hentry
  obtain rfl := Option.some.inj (hvalue.symm.trans hgiven)
  obtain rfl := Option.some.inj (hvalue'.symm.trans hgiven')
  dsimp only [argument] at hargument hargument'
  split at hargument
  next hcopied =>
    rw [if_pos hcopied] at hargument'
    exact h.registers.read hargument hargument'
  next hcopied =>
    rw [if_neg hcopied] at hargument'
    split at hargument
    next hpassed =>
      rw [if_pos hpassed] at hargument'
      obtain rfl := Except.ok.inj hargument
      obtain rfl := Except.ok.inj hargument'
      exact .refl _
    next hpassed =>
      rw [if_neg hpassed] at hargument'
      exact h.registers.read hargument hargument'

theorem Resembles.restore {function : Builtin} {result : Address} {addresses : List Address}
    {values values' : Array Value} {registers registers' : Registers} (h : machine.Resembles machine')
    (hvalues : Value.AllResemble values values')
    (hrestore : machine.restore function result addresses values = .ok registers)
    (hrestore' : machine'.restore function result addresses values' = .ok registers') :
    registers.Resembles registers' := by
  refine foldlM_relates Registers.Resembles h.registers ?_ hrestore hrestore'
  rintro registers registers' ⟨address, n⟩ after after' - hresembles hput hput'
  dsimp only at hput hput'
  split at hput
  next hleft =>
    rw [if_pos hleft] at hput'
    obtain rfl := pure_eq_ok.mp hput
    obtain rfl := pure_eq_ok.mp hput'
    exact hresembles
  next hleft =>
    rw [if_neg hleft] at hput'
    obtain ⟨value, hvalue, hput⟩ := bind_eq_ok.mp hput
    obtain ⟨value', hvalue', hput'⟩ := bind_eq_ok.mp hput'
    exact hresembles.put (hvalues.resembles n value value' (fetch_eq_ok.mp hvalue)
      (fetch_eq_ok.mp hvalue')) hput hput'

theorem Resembles.call {scene : Scene} {function : Builtin} {result : Address}
    {addresses : List Address} (h : machine.Resembles machine') (hover : machine.Over points)
    (hover' : machine'.Over points) (hconstants : Value.AllOver points constants)
    (hcount : addresses.length ≤ function.arity.2)
    (hnext : machine.call constants scene function result addresses = .ok next)
    (hnext' : machine'.call constants scene function result addresses = .ok next') :
    next.Resembles next' := by
  obtain ⟨arguments, mask, reply, registers, harguments, -, -, hrun, hreplied, rfl⟩ :=
    call_eq_ok.mp hnext
  obtain ⟨arguments', mask', reply', registers', harguments', -, -, hrun', hreplied', rfl⟩ :=
    call_eq_ok.mp hnext'
  have hallover := arguments_over hover.registers hconstants harguments
  have hallover' := arguments_over hover'.registers hconstants harguments'
  have hsize : arguments.toArray.size ≤ function.arity.2 := by
    have hlength := (mapM_eq_ok.mp harguments).1
    rw [List.length_zipIdx] at hlength
    rwa [List.size_toArray, ← hlength]
  rw [← hover.points_eq] at hallover hallover'
  rw [← h.width_eq, ← h.height_eq] at hrun'
  have hreplies := Builtin.run_resembles hsize (h.arguments harguments harguments') hallover hallover'
    hrun hrun'
  refine h.with_registers ?_
  cases hreplies with
  | result hvalue =>
    rw [replied, ← h.points_eq] at hreplied'
    exact h.registers.commit hvalue hreplied hreplied'
  | arguments hvalues => exact h.restore hvalues hreplied hreplied'

/-- **Commands.**  Machines that resemble each other before a command that both perform do so after
    it, unless it is a jump or asks the renderer. -/
theorem Performed.resembles (h : Performed renderer shader instruction machine command flow next)
    (h' : Performed renderer shader instruction machine' command flow' next')
    (hresembles : machine.Resembles machine') (hover : machine.Over points)
    (hover' : machine'.Over points) (hconstants : Value.AllOver points shader.constants)
    (hplain : command.isPlain = true) (hfits : command.Fits) (hcount : command.PassesNoMore) :
    flow = flow' ∧ next.Resembles next' := by
  cases h with
  | pass | jump | evaluate => cases hplain
  | nothing | halt =>
    cases h'
    exact ⟨rfl, hresembles⟩
  | discard registers h =>
    cases h' with
    | discard registers' h' =>
      exact ⟨rfl, hresembles.with_registers (hresembles.registers.clearTemporaries h h')⟩
  | clearMask | invertMask | generateMask =>
    cases h'
    exact ⟨rfl, hresembles.with_masks⟩
  | compute _ _ _ _ _ _ h =>
    cases h' with
    | compute _ _ _ _ _ _ h' => exact ⟨rfl, hresembles.compute hfits.1 h h'⟩
  | assign _ _ _ _ h =>
    cases h' with
    | assign _ _ _ _ h' => exact ⟨rfl, hresembles.assign hfits h h'⟩
  | call _ _ _ _ h =>
    cases h' with
    | call _ _ _ _ h' => exact ⟨rfl, hresembles.call hover hover' hconstants hcount h h'⟩

end Machine

end Shading
