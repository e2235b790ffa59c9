import Shading.Proofs.Calls
import Shading.Proofs.Results

namespace Shading

/-!
# Calls without a result

The builtins without a result write some of their arguments.  What they write reaches the registers of
these arguments, unless such a register was passed at an earlier place: then the builtin wrote a copy,
and the register is put back as it was.

* `Setting.SetsComponent`, `Setting.SetsShare` — what a builtin is to leave in an output;
* `Builtin.Writes` — the same for all builtins, by the place of the output;
* `Machine.target_of_restore`, `Machine.read_of_restore` — the registers after a call;
* `Machine.Executes.writes_outputs` — what a call without a result does.
-/

/-! ### What the builtins write -/

namespace Value

variable {value : Value} {i : Nat} {v : Vec3}

theorem vec3_eq_ok : value.vec3 i = .ok v ↔
    value.floats[value.storage.element i * 3]? = some v.x ∧
    value.floats[value.storage.element i * 3 + 1]? = some v.y ∧
    value.floats[value.storage.element i * 3 + 2]? = some v.z := by
  unfold vec3
  simp only [bind_eq_ok, fetch_eq_ok, pure_eq_ok]
  constructor
  · rintro ⟨x, hx, y, hy, z, hz, rfl⟩
    exact ⟨hx, hy, hz⟩
  · rintro ⟨hx, hy, hz⟩
    exact ⟨v.x, hx, v.y, hy, v.z, hz, rfl⟩

theorem vec3_congr {floats : Buffer} (h : ∀ c < 3, floats[value.storage.element i * 3 + c]?
      = value.floats[value.storage.element i * 3 + c]?) :
    { value with floats := floats }.vec3 i = value.vec3 i := by
  have h0 : fetch floats (value.storage.element i * 3)
      = fetch value.floats (value.storage.element i * 3) := fetch_congr (h 0 (by decide))
  simp only [vec3]
  rw [h0, fetch_congr (h 1 (by decide)), fetch_congr (h 2 (by decide))]

theorem exists_vec3 (value : Value) (i : Nat) (h : value.storage.element i * 3 + 2 < value.floats.size) :
    ∃ v, value.vec3 i = .ok v :=
  ⟨⟨_, _, _⟩, vec3_eq_ok.mpr ⟨Array.getElem?_eq_getElem (by omega),
    Array.getElem?_eq_getElem (by omega), Array.getElem?_eq_getElem h⟩⟩

/-- A value in which one float of an element is another has another component there. -/
theorem vec3_set_eq_ok {floats : Buffer} {axis : Axis} {x : Float32} (hv : value.vec3 i = .ok v)
    (h : ∀ c < 3, floats[value.storage.element i * 3 + c]?
      = if c = axis.index then some x else value.floats[value.storage.element i * 3 + c]?) :
    { value with floats := floats }.vec3 i = .ok (v.set axis x) := by
  obtain ⟨h0, h1, h2⟩ := vec3_eq_ok.mp hv
  refine vec3_eq_ok.mpr ⟨(h 0 (by decide)).trans ?_, (h 1 (by decide)).trans ?_,
    (h 2 (by decide)).trans ?_⟩
  all_goals cases axis <;> simp [Axis.index, Vec3.set, h0, h1, h2]

end Value

namespace Setting

variable {setting : Setting}

/-- What is left of `p` when its component is set to `x` at the active points.  A uniform value has one
    element for all points and is written under every mask. -/
structure SetsComponent (setting : Setting) (axis : Axis) (p x after : Value) : Prop where
  same_shape : ∃ floats, after = { p with floats := floats } ∧ floats.size = p.floats.size
  written : ∀ i < p.size, (p.storage = .varying → isActiveAt setting.mask i = true) →
    ∃ v s, p.vec3 i = .ok v ∧ x.float i = .ok s ∧ after.vec3 i = .ok (v.set axis s)
  kept : ∀ i, p.storage = .varying → isActiveAt setting.mask i = false →
    after.vec3 i = p.vec3 i

/-- What is left of `old` when one of the two shares of light is written into it at the active points.
    It becomes a varying float if it was not. -/
structure SetsShare (setting : Setting) (share : Float32 × Float32 → Float32)
    (incident n eta old after : Value) : Prop where
  fits : after.fits .float .varying setting.points = true
  written : ∀ i < setting.points, isActiveAt setting.mask i = true →
    ∃ v m s, incident.vec3 i = .ok v ∧ n.vec3 i = .ok m ∧ eta.float i = .ok s ∧
      after.float i = .ok (share (fresnelCoefficients v m s))
  kept : ∀ i < setting.points, isActiveAt setting.mask i = false →
    if old.fits .float .varying setting.points then after.float i = old.float i
    else after.float i = .ok 0

theorem SetsComponent.of_float {axis : Axis} {p x x' after : Value}
    (h : setting.SetsComponent axis p x after)
    (hx : ∀ i s, x.float i = .ok s → x'.float i = .ok s) :
    setting.SetsComponent axis p x' after := by
  refine ⟨h.same_shape, fun i hi hactive => ?_, h.kept⟩
  obtain ⟨v, s, hv, hs, hafter⟩ := h.written i hi hactive
  exact ⟨v, s, hv, hx i s hs, hafter⟩

theorem SetsShare.of_float {share : Float32 × Float32 → Float32}
    {incident n eta eta' old after : Value} (h : setting.SetsShare share incident n eta old after)
    (heta : ∀ i s, eta.float i = .ok s → eta'.float i = .ok s) :
    setting.SetsShare share incident n eta' old after := by
  refine ⟨h.fits, fun i hi hactive => ?_, h.kept⟩
  obtain ⟨v, m, s, hv, hm, hs, hafter⟩ := h.written i hi hactive
  exact ⟨v, m, s, hv, hm, heta i s hs, hafter⟩

/-- A component of a uniform value is written once for all. -/
theorem writeComponents_uniform {p x : Value} {axis : Axis} {n : Nat} {floats out : Buffer}
    (hp : p.storage = .uniform) (hx : x.storage = .uniform) (hn : 0 < n)
    (h : forPlaces n floats (setting.writeComponent p x axis) = .ok out) :
    ∃ y, x.float 0 = .ok y ∧ 2 < floats.size ∧ out = floats.setIfInBounds axis.index y := by
  have hstep : ∀ i (zs ws : Buffer), setting.writeComponent p x axis i zs = .ok ws ↔
      ∃ y, x.float 0 = .ok y ∧ 2 < zs.size ∧ ws = zs.setIfInBounds axis.index y := by
    intro i zs ws
    have hreaches : setting.reaches p i = .ok true := by
      rw [reaches, if_neg (by simp [Value.isVarying, hp])]
    have hfloat : x.float i = x.float 0 := by
      rw [Value.float, Value.float, hx]
      rfl
    have hbase : p.storage.element i * 3 = 0 := by
      rw [hp]
      rfl
    simp only [writeComponent, hreaches, hfloat, hbase, bind_eq_ok, Nat.zero_add]
    constructor
    · rintro ⟨active, hactive, hrun⟩
      obtain rfl := Except.ok.inj hactive
      simp only [if_true, bind_eq_ok, pure_eq_ok, discard_eq_ok, fetch_eq_ok] at hrun
      obtain ⟨y, hy, -, ⟨z, hz⟩, rfl⟩ := hrun
      exact ⟨y, hy, (Array.getElem?_eq_some_iff.mp hz).1, rfl⟩
    · rintro ⟨y, hy, hlt, rfl⟩
      refine ⟨true, rfl, ?_⟩
      simp [hy, hlt]
  -- all steps after the first write what is there already
  let after (i : Nat) : Buffer :=
    if i = 0 then floats else floats.setIfInBounds axis.index ((x.float 0).toOption.getD 0)
  have hafter : forPlaces n (after 0) (setting.writeComponent p x axis) = .ok out ↔
      (∀ i < n, 2 < floats.size ∧ ∃ y, x.float 0 = .ok y) ∧ out = after n := by
    refine forPlaces_eq_ok_after after _ fun i hi next => (hstep i _ next).trans ?_
    constructor
    · rintro ⟨y, hy, hlt, rfl⟩
      by_cases hi : i = 0 <;> simp_all [after, Except.toOption]
    · rintro ⟨⟨hlt, y, hy⟩, rfl⟩
      by_cases hi : i = 0 <;> simp_all [after, Except.toOption]
  obtain ⟨hready, rfl⟩ := hafter.mp h
  obtain ⟨hlt, y, hy⟩ := hready 0 hn
  refine ⟨y, hy, hlt, ?_⟩
  show (if n = 0 then floats else _) = _
  rw [if_neg (Nat.ne_of_gt hn), hy]
  rfl

theorem setComponent_sets {arguments out : Array Value} {axis : Axis}
    (h : setting.setComponent arguments axis = .ok out) :
    ∃ p x after, arguments[0]? = some p ∧ arguments[1]? = some x ∧
      out = arguments.setIfInBounds 0 after ∧ setting.SetsComponent axis p x after := by
  obtain ⟨p, x, floats, hp, hx, htriple, hstorage, hfloats, rfl⟩ := setComponent_eq_ok.mp h
  refine ⟨p, x, _, hp, hx, rfl, ?_⟩
  obtain huniform | hvarying := p.storage.uniform_or_varying
  -- a uniform triple is written at its first element, whatever the mask
  · have hx' : x.storage = .uniform := by
      refine x.storage.uniform_or_varying.resolve_right fun hvarying => ?_
      have hnot := hstorage (by simp [Value.isUniform, huniform])
      simp [Value.isVarying, hvarying] at hnot
    by_cases hsize : p.size = 0
    · rw [hsize, forPlaces_zero] at hfloats
      obtain rfl := Except.ok.inj hfloats
      exact ⟨⟨_, rfl, rfl⟩, by omega, by simp [huniform]⟩
    · obtain ⟨y, hy, hlt, rfl⟩ :=
        writeComponents_uniform huniform hx' (Nat.pos_of_ne_zero hsize) hfloats
      refine ⟨⟨_, rfl, by simp⟩, fun i _ _ => ?_, by simp [huniform]⟩
      have helement : p.storage.element i = 0 := by
        rw [huniform]
        rfl
      have hfloat : x.float i = .ok y := by
        rw [Value.float, hx'] at hy ⊢
        exact hy
      obtain ⟨v, hv⟩ := p.exists_vec3 i (by rwa [helement])
      refine ⟨v, y, hv, hfloat, Value.vec3_set_eq_ok hv fun c hc => ?_⟩
      have hindex := axis.index_lt
      rw [helement, Nat.zero_mul, Nat.zero_add, Array.getElem?_setIfInBounds]
      by_cases hc' : axis.index = c
      · rw [if_pos hc', if_pos hc'.symm, if_pos (by omega)]
      · rw [if_neg hc', if_neg (Ne.symm hc')]
  · obtain ⟨hready, rfl⟩ := (writeComponents_eq_ok hvarying).mp hfloats
    have helement : ∀ i, p.storage.element i = i := by
      intro i
      rw [hvarying]
      rfl
    refine ⟨⟨_, rfl, size_rewriteAt⟩, fun i hi hactive => ?_, fun i _ hinactive => ?_⟩
    · obtain ⟨b, hb, hwritten⟩ := hready i hi
      have hactive := hactive hvarying
      obtain ⟨hlt, s, hs⟩ := hwritten ((isActive_eq_ok hb).trans hactive)
      obtain ⟨v, hv⟩ := p.exists_vec3 i (by rwa [helement])
      refine ⟨v, s, hv, hs, Value.vec3_set_eq_ok hv fun c hc => ?_⟩
      rw [helement, getElem?_rewriteAt, block_div hc, block_mod hc, if_pos (by simp [hi, hactive]),
        Array.getElem?_eq_getElem (by omega : i * 3 + c < p.floats.size), hs]
      by_cases hc' : c = axis.index
      · rw [if_pos hc', Option.map_some, if_pos hc']
        rfl
      · rw [if_neg hc', Option.map_some, if_neg hc']
    · refine Value.vec3_congr fun c hc => ?_
      rw [helement, getElem?_rewriteAt, block_div hc, if_neg (by simp [hinactive])]

theorem share_sets {incident n eta old k : Value} {share : Float32 × Float32 → Float32}
    {floats : Buffer} (hk : old.ensure .float .varying setting.points = .ok k)
    (hready : ∀ e < setting.points, ∃ b, setting.isActive e = .ok b ∧ (b = true →
      e < k.floats.size ∧ ∃ both, coefficients incident n eta e = .ok both))
    (hfloats : floats = rewriteAt (fun k => k < setting.points)
      (setting.coefficientOr incident n eta share) k.floats) :
    setting.SetsShare share incident n eta old { k with floats := floats } := by
  have hfits := Value.fits_of_ensure hk
  have hvarying : k.storage = .varying := (Value.fits_iff.mp hfits).2.1
  have hfloat : ∀ i < setting.points, { k with floats := floats }.float i
      = (setting.coefficientOr incident n eta share i) <$> fetch k.floats i := by
    intro i hi
    show fetch floats (k.storage.element i) = _
    rw [hvarying, hfloats]
    show fetch (rewriteAt _ _ k.floats) i = _
    rw [fetch_eq, fetch_eq, getElem?_rewriteAt, if_pos (by simpa using hi)]
    cases k.floats[i]? <;> rfl
  refine ⟨Value.fits_iff.mpr (Value.fits_iff.mp hfits), fun i hi hactive => ?_,
    fun i hi hinactive => ?_⟩
  · obtain ⟨b, hb, hwritten⟩ := hready i hi
    obtain ⟨hlt, both, hboth⟩ := hwritten ((isActive_eq_ok hb).trans hactive)
    obtain ⟨v, hv, m, hm, s, hs, rfl⟩ : ∃ v, incident.vec3 i = .ok v ∧ ∃ m, n.vec3 i = .ok m ∧
        ∃ s, eta.float i = .ok s ∧ fresnelCoefficients v m s = both := by
      simpa [coefficients] using hboth
    refine ⟨v, m, s, hv, hm, hs, ?_⟩
    rw [hfloat i hi, fetch_eq_ok.mpr (Array.getElem?_eq_getElem hlt)]
    show Except.ok (setting.coefficientOr incident n eta share i _) = _
    rw [coefficientOr, if_pos hactive, hboth]
    rfl
  · rw [hfloat i hi, coefficientOr_inactive hinactive, id_map]
    unfold Value.ensure at hk
    by_cases hold : old.fits .float .varying setting.points = true
    · -- what was there fits
      rw [if_pos hold] at hk ⊢
      obtain rfl := Except.ok.inj hk
      rw [Value.float, hvarying]
      rfl
    · rw [if_neg hold] at hk ⊢
      obtain ⟨-, rfl⟩ := Value.allocate_eq_ok.mp hk
      have hlt : i < (ElementType.float.components * setting.points) := by
        show i < 1 * setting.points
        omega
      simp [Value.zeros, hlt]

theorem fresnel_sets {arguments out : Array Value} (h : setting.fresnel arguments = .ok out) :
    ∃ incident n eta r t kr kt, arguments[0]? = some incident ∧ arguments[1]? = some n ∧
      arguments[2]? = some eta ∧ arguments[3]? = some r ∧ arguments[4]? = some t ∧
      incident.type.isTriple = true ∧ n.type.isTriple = true ∧
      out = (arguments.setIfInBounds 3 kr).setIfInBounds 4 kt ∧
      setting.SetsShare Prod.fst incident n eta r kr ∧
      setting.SetsShare Prod.snd incident n eta t kt := by
  obtain ⟨incident, n, eta, r, t, kr, kt, floats, hincident, hn, heta, hr, ht, htriple, htriple',
    hkr, hkt, hloop, rfl⟩ := fresnel_eq_ok.mp h
  obtain ⟨hready, rfl⟩ := writeCoefficients_eq_ok.mp hloop
  refine ⟨incident, n, eta, r, t, _, _, hincident, hn, heta, hr, ht, htriple, htriple', rfl,
    share_sets hkr (fun e he => ?_) rfl, share_sets hkt (fun e he => ?_) rfl⟩
  · obtain ⟨b, hb, hwritten⟩ := hready e he
    exact ⟨b, hb, fun hactive => ⟨(hwritten hactive).1, (hwritten hactive).2.2⟩⟩
  · obtain ⟨b, hb, hwritten⟩ := hready e he
    exact ⟨b, hb, fun hactive => (hwritten hactive).2⟩

end Setting

namespace Builtin

variable {function : Builtin} {setting : Setting} {passed written : Array Value}

/-- The places of the arguments that a builtin writes. -/
def outputs : Builtin → List Nat
  | .setComponent _ => [0]
  | .fresnel => [3, 4]
  | _ => []

/-- What a builtin is to leave in the output at place `n`, from the values of its arguments. -/
def Writes (function : Builtin) (setting : Setting) (values : List Value) (n : Nat)
    (after : Value) : Prop :=
  match function, values, n with
  | .setComponent axis, [p, x], 0 => setting.SetsComponent axis p x after
  | .fresnel, [incident, normal, eta, kr, _], 3 =>
    setting.SetsShare Prod.fst incident normal eta kr after
  | .fresnel, [incident, normal, eta, _, kt], 4 =>
    setting.SetsShare Prod.snd incident normal eta kt after
  | _, _, _ => False

theorem lt_arity_of_mem_outputs {n : Nat} (hn : n ∈ function.outputs) : n < function.arity.1 := by
  cases function with
  | setComponent axis | fresnel =>
    simp only [outputs, List.mem_cons, List.not_mem_nil, or_false] at hn
    simp only [arity]
    omega
  | _ => cases hn

/-- The builtins without a result take a fixed number of arguments. -/
theorem length_of_isVoid {addresses : List Address} (hvoid : function.isVoid = true)
    (h : function.arity.1 ≤ addresses.length ∧ addresses.length ≤ function.arity.2) :
    addresses.length = function.arity.1 := by
  cases function with
  | setComponent axis | fresnel =>
    simp only [arity] at h ⊢
    omega
  | _ => cases hvoid

/-- The other arguments are left alone. -/
theorem kept_of_run (h : function.run setting passed = .ok (.arguments written)) {n : Nat}
    (hn : n ∉ function.outputs) : written[n]? = passed[n]? := by
  obtain ⟨axis, rfl, hrun⟩ | ⟨rfl, hrun⟩ := Machine.run_arguments h
  · obtain ⟨_, _, after, -, -, rfl, -⟩ := Setting.setComponent_sets hrun
    rw [outputs, List.mem_singleton] at hn
    rw [Array.getElem?_setIfInBounds_ne (Ne.symm hn)]
  · obtain ⟨_, _, _, _, _, kr, kt, -, -, -, -, -, -, -, rfl, -⟩ := Setting.fresnel_sets hrun
    rw [outputs, List.mem_cons, List.mem_singleton, not_or] at hn
    rw [Array.getElem?_setIfInBounds_ne (Ne.symm hn.2),
      Array.getElem?_setIfInBounds_ne (Ne.symm hn.1)]

/-- **Outputs.**  A builtin computes its outputs as from the values themselves, also where these are
    passed as empty ones. -/
theorem writes_of_run {values : List Value} (hstripped : Stripped passed values.toArray)
    (hcount : values.length = function.arity.1)
    (h : function.run setting passed = .ok (.arguments written)) {n : Nat}
    (hn : n ∈ function.outputs) (hold : passed[n]? = values[n]?) :
    ∃ after, written[n]? = some after ∧ function.Writes setting values n after := by
  obtain ⟨axis, rfl, hrun⟩ | ⟨rfl, hrun⟩ := Machine.run_arguments h
  · obtain ⟨p, x, rfl⟩ := List.length_eq_two.mp hcount
    obtain ⟨p', x', after, hp, hx, rfl, hsets⟩ := Setting.setComponent_sets hrun
    obtain rfl := List.mem_singleton.mp hn
    obtain rfl := Option.some.inj (hp.symm.trans hold)
    have hlt := (Array.getElem?_eq_some_iff.mp hp).1
    exact ⟨after, Array.getElem?_setIfInBounds_self_of_lt hlt,
      hsets.of_float fun i s => hstripped.float hx rfl⟩
  · match values, hcount with
    | [incident, normal, eta, kr, kt], _ =>
      obtain ⟨incident', normal', eta', r, t, kr', kt', hincident, hnormal, heta, hr, ht, htriple,
        htriple', rfl, hsets, hsets'⟩ := Setting.fresnel_sets hrun
      have hincident' := hincident.symm.trans
        (hstripped.getElem?_eq (Setting.ne_empty_of_isTriple hincident htriple))
      have hnormal' := hnormal.symm.trans
        (hstripped.getElem?_eq (Setting.ne_empty_of_isTriple hnormal htriple'))
      obtain rfl := Option.some.inj hincident'
      obtain rfl := Option.some.inj hnormal'
      have hfloat : ∀ i s, eta'.float i = .ok s → eta.float i = .ok s :=
        fun i s => hstripped.float heta rfl
      have hlt := (Array.getElem?_eq_some_iff.mp ht).1
      rcases List.mem_pair.mp hn with rfl | rfl
      · obtain rfl := Option.some.inj (hr.symm.trans hold)
        refine ⟨kr', ?_, hsets.of_float hfloat⟩
        rw [Array.getElem?_setIfInBounds_ne (by decide),
          Array.getElem?_setIfInBounds_self_of_lt (by omega)]
      · obtain rfl := Option.some.inj (ht.symm.trans hold)
        refine ⟨kt', ?_, hsets'.of_float hfloat⟩
        rw [Array.getElem?_setIfInBounds_self_of_lt (by simpa using hlt)]

end Builtin

namespace Machine

variable {σ : Type} {constants : Array Value} {renderer : Renderer σ} {shader : Shader}
  {machine next : Machine σ} {function : Builtin} {result : Address} {addresses : List Address}

/-- The outputs of a call are the registers that it writes. -/
theorem mem_writes_of_mem_outputs {n : Nat} {address : Address} (hn : n ∈ function.outputs)
    (haddress : addresses[n]? = some address) :
    address ∈ Command.writes (.call function result addresses) := by
  cases function with
  | setComponent axis =>
    obtain rfl := List.mem_singleton.mp hn
    refine List.mem_of_getElem? (i := 0) ?_
    rw [Command.writes, List.getElem?_take_of_lt Nat.one_pos, haddress]
  | fresnel =>
    refine List.mem_of_getElem? (i := n - 3) ?_
    have hn : n = 3 ∨ n = 4 := List.mem_pair.mp hn
    rw [Command.writes, List.getElem?_drop, ← haddress]
    congr 1
    omega
  | _ => cases hn

/-- Distinct outputs are not passed for each other. -/
theorem not_mem_outputs_of_lt {m n : Nat} {address : Address}
    (hdistinct : (Command.writes (.call function result addresses)).Nodup)
    (hn : n ∈ function.outputs) (hlt : m < n) (hm : addresses[m]? = some address)
    (haddress : addresses[n]? = some address) : m ∉ function.outputs := by
  cases function with
  | setComponent axis =>
    obtain rfl := List.mem_singleton.mp hn
    exact absurd hlt (Nat.not_lt_zero m)
  | fresnel =>
    intro hm'
    have hn : n = 3 ∨ n = 4 := List.mem_pair.mp hn
    have hm' : m = 3 ∨ m = 4 := List.mem_pair.mp hm'
    obtain rfl : m = 3 := by omega
    obtain rfl : n = 4 := by omega
    have hfirst : (addresses.drop 3)[0]? = some address := by rw [List.getElem?_drop, hm]
    have hsecond : (addresses.drop 3)[1]? = some address := by rw [List.getElem?_drop, haddress]
    exact List.nodup_iff_getElem?_ne_getElem?.mp hdistinct 0 1 (by decide)
      (List.getElem?_eq_some_iff.mp hsecond).1 (hfirst.trans hsecond.symm)
  | _ => cases hn

section Restored

variable {setting : Setting} {arguments : List Value} {written : Array Value}
  {registers : Registers}
  (harguments : addresses.zipIdx.mapM (fun (address, n) =>
    machine.argument constants function result addresses n address) = .ok arguments)
  (hrun : function.run setting arguments.toArray = .ok (.arguments written))
  (h : machine.restore function result addresses written = .ok registers)

include harguments hrun h

/-- A register that was moved from takes what the builtin left at that place. -/
theorem target_of_restore {address : Address} {n : Nat}
    (hmoved : (address, n) ∈ movedEntries function result addresses) :
    ∃ after, written[n]? = some after ∧ registers.target address = .ok after := by
  have hsize : written.size = arguments.length := by simpa using size_of_arguments hrun
  rw [restore_arguments harguments hsize] at h
  obtain rfl := Except.ok.inj h
  obtain ⟨value, -, htarget⟩ := target_of_moved harguments hmoved
  exact ⟨_, getElem?_of_moved harguments hsize hmoved,
    Registers.target_foldl_set_of_mem _ (fun n => written.getD n Value.empty) pairwise_address hmoved
      htarget⟩

theorem read_of_restore {address : Address} (constants' : Array Value)
    (hmoved : ∀ n, (address, n) ∉ movedEntries function result addresses) :
    registers.read constants' address = machine.registers.read constants' address := by
  have hsize : written.size = arguments.length := by simpa using size_of_arguments hrun
  rw [restore_arguments harguments hsize] at h
  obtain rfl := Except.ok.inj h
  have hnot : address ∉ (movedEntries function result addresses).map Prod.fst := by
    intro hmem
    obtain ⟨entry, hentry, rfl⟩ := List.mem_map.mp hmem
    exact hmoved entry.2 hentry
  rw [Registers.read_eq, Registers.read_eq, Registers.target_foldl_set_of_not_mem _
    (fun n => written.getD n Value.empty) hnot]

/-- An argument that the builtin does not write is put back as it was. -/
theorem target_of_kept {address : Address} {n : Nat}
    (hmoved : (address, n) ∈ movedEntries function result addresses) (hn : n ∉ function.outputs) :
    registers.target address = machine.registers.target address := by
  obtain ⟨after, hafter, htarget⟩ := target_of_restore harguments hrun h hmoved
  obtain ⟨value, hvalue, hheld⟩ := target_of_moved harguments hmoved
  rw [Builtin.kept_of_run hrun hn, List.getElem?_toArray, hvalue] at hafter
  rw [htarget, hheld, Option.some.inj hafter]

/-- Only outputs change. -/
theorem read_of_not_written {address : Address} (constants' : Array Value)
    (hnot : address ∉ Command.writes (.call function result addresses)) :
    registers.read constants' address = machine.registers.read constants' address := by
  by_cases hmoved : ∃ n, (address, n) ∈ movedEntries function result addresses
  · obtain ⟨n, hmoved⟩ := hmoved
    obtain ⟨haddress, hcopied, -⟩ := mem_movedEntries.mp hmoved
    have hconstant := isConstant_of_not_isCopied hcopied
    rw [Registers.read_eq_target hconstant, Registers.read_eq_target hconstant]
    apply target_of_kept harguments hrun h hmoved
    intro hn
    exact hnot (mem_writes_of_mem_outputs hn haddress)
  · exact read_of_restore harguments hrun h constants' (not_exists.mp hmoved)

/-- What an output holds that may be passed at an earlier place as well. -/
theorem output_of_restore {values : List Value} {n : Nat} {address : Address}
    (hdistinct : (Command.writes (.call function result addresses)).Nodup)
    (hvalues : addresses.mapM (machine.registers.read constants) = .ok values)
    (hstripped : Stripped arguments.toArray values.toArray)
    (hcount : addresses.length = function.arity.1) (hn : n ∈ function.outputs)
    (haddress : addresses[n]? = some address)
    (hcopied : isCopied function result address = false) :
    ∃ after, registers.target address = .ok after ∧
      (address ∉ addresses.take n → function.Writes setting values n after) ∧
      (address ∈ addresses.take n → machine.registers.target address = .ok after) := by
  obtain ⟨m, hm, hmaddress, hfirst⟩ := exists_first haddress
  have hmoved := mem_movedEntries.mpr ⟨hmaddress, hcopied, hfirst⟩
  obtain ⟨after, hafter, htarget⟩ := target_of_restore harguments hrun h hmoved
  refine ⟨after, htarget, fun hnot => ?_, fun hmem => ?_⟩
  · obtain rfl : m = n := by
      refine eq_of_le_of_not_lt hm fun hlt => hnot (List.mem_of_getElem? (i := m) ?_)
      rw [List.getElem?_take_of_lt hlt, hmaddress]
    -- the builtin got what the register held
    have hold : arguments.toArray[m]? = values[m]? := by
      obtain ⟨value, hvalue, hheld⟩ := target_of_moved harguments hmoved
      obtain ⟨value', hvalue', hread⟩ := (mapM_eq_ok.mp hvalues).2 m address haddress
      rw [Registers.read_eq_target (isConstant_of_not_isCopied hcopied), hheld] at hread
      rw [List.getElem?_toArray, hvalue, hvalue', Except.ok.inj hread]
    have hlength : values.length = function.arity.1 := hcount ▸ (mapM_eq_ok.mp hvalues).1.symm
    obtain ⟨after', hafter', hwrites⟩ := Builtin.writes_of_run hstripped hlength hrun hn hold
    rwa [Option.some.inj (hafter.symm.trans hafter')]
  · -- the register was moved from at an earlier place
    have hlt : m < n := by
      refine Nat.lt_of_le_of_ne hm ?_
      rintro rfl
      exact hfirst hmem
    have hkept := not_mem_outputs_of_lt hdistinct hn hlt hmaddress haddress
    rw [← htarget]
    exact (target_of_kept harguments hrun h hmoved hkept).symm

end Restored

/-- What it means that a call without a result writes its outputs and nothing else. -/
structure WritesOutputs (renderer : Renderer σ) (shader : Shader) (function : Builtin)
    (result : Address) (addresses : List Address) (machine next : Machine σ) : Prop where
  /-- Registers apart, the machine moves on and counts the instruction. -/
  moves : ∃ offset registers, next =
    { machine with ip := offset, executed := machine.executed + 1, registers := registers }
  /-- Only outputs change. -/
  frame : ∀ constants address, address ∉ Command.writes (.call function result addresses) →
    next.registers.read constants address = machine.registers.read constants address
  /-- An output holds what the builtin writes, given what the arguments held before the call.  One that
      is also passed at an earlier place holds what it held. -/
  outputs : ∃ values mask,
    addresses.mapM (machine.registers.read shader.constants) = .ok values ∧
    machine.masks.active = .ok mask ∧
    ∀ n ∈ function.outputs, ∃ address after, addresses[n]? = some address ∧
      next.registers.target address = .ok after ∧
      (address ∉ addresses.take n → function.Writes
        ⟨renderer.scene, machine.width, machine.height, mask⟩ values n after) ∧
      (address ∈ addresses.take n → machine.registers.target address = .ok after)

/-- **Outputs.**  A call without a result writes its outputs and nothing else.  What it computes is lost
    for an output that stands earlier in the list of its arguments. -/
theorem Executes.writes_outputs (hvoid : function.isVoid = true)
    (hdistinct : (Command.writes (.call function result addresses)).Nodup)
    (hwritable : ∀ address ∈ Command.writes (.call function result addresses),
      address.isConstant = false)
    (h : Executes renderer shader (.call function result addresses) machine next) :
    WritesOutputs renderer shader function result addresses machine next := by
  obtain ⟨-, instruction, -, -, hdecode⟩ := h.1
  have hcount := Builtin.length_of_isVoid hvoid (Command.count_of_decode hdecode)
  obtain ⟨instruction, flow, last, offset, hperformed, rfl⟩ := h.performed
  cases hperformed with
  | call _ _ _ _ hcall =>
    obtain ⟨arguments, mask, reply, registers, harguments, -, hmask, hrun, hreplied, rfl⟩ :=
      call_eq_ok.mp hcall
    obtain ⟨values, hvalues, hstripped⟩ := stripped_arguments harguments
    cases reply with
    | result value =>
      rw [isVoid_of_result hrun] at hvoid
      cases hvoid
    | arguments written =>
      refine ⟨⟨offset, registers, rfl⟩, fun constants address =>
        read_of_not_written harguments hrun hreplied constants, values, mask, hvalues, hmask,
        fun n hn => ?_⟩
      have hlt : n < addresses.length := hcount ▸ Builtin.lt_arity_of_mem_outputs hn
      have haddress := List.getElem?_eq_getElem hlt
      have hcopied : isCopied function result addresses[n] = false := by
        rw [isCopied, hvoid, hwritable _ (mem_writes_of_mem_outputs hn haddress)]
        rfl
      obtain ⟨after, hafter⟩ := output_of_restore harguments hrun hreplied hdistinct hvalues hstripped
        hcount hn haddress hcopied
      exact ⟨addresses[n], after, haddress, hafter⟩

end Machine

/-- The share of light that is reflected goes to the register of the index of refraction. -/
def shareIntoIndex : Shader where
  kind := .surface
  name := "main"
  code := #[28, 13, 0x80000000, 5, 0x80000000, 0x80000001, 0x80000002, 0x80000002, 0x80000003]
  constants := #[]
  symbols := ⟨#[]⟩
  temporaries := 4

namespace ShareIntoIndex

def incident : Value := { Value.zeros .vector .varying 2 with floats := #[1, 2, 3, 4, 5, 6] }

def normal : Value := { Value.zeros .normal .uniform 1 with floats := #[0, 0, 1] }

/-- The light that is let through goes to a register of its own. -/
def addresses : List Address :=
  [.temporary 0, .temporary 1, .temporary 2, .temporary 2, .temporary 3]

/-- Only the first point is active. -/
def machine : Machine Unit :=
  { twoPointsWith #[incident, normal, .uniformFloat 0.5, .varyingFloat #[2, 3]] with
    masks := ⟨2, [#[true, false], #[true, true]]⟩ }

theorem commandAt :
    shareIntoIndex.CommandAt 0 (.call .fresnel (.temporary 0) addresses) :=
  ⟨28, ⟨.call, _⟩, rfl, rfl, by decide +kernel⟩

theorem exists_step : ∃ flow next,
    machine.step (.ofScene .still) shareIntoIndex 28 = .ok (flow, next) ∧
    (next.registers.target (.temporary 2)).map Value.storage = .ok .uniform := by
  have hstep : (machine.step (.ofScene .still) shareIntoIndex 28).map
      (fun result => (result.2.registers.target (.temporary 2)).map Value.storage)
      = .ok (.ok .uniform) := by
    decide +kernel
  rcases hresult : machine.step (.ofScene .still) shareIntoIndex 28 with fault | ⟨flow, next⟩
  · rw [hresult] at hstep
    cases hstep
  · rw [hresult] at hstep
    exact ⟨flow, next, rfl, Except.ok.inj hstep⟩

end ShareIntoIndex

section

open ShareIntoIndex

/-- One output is passed for an input as well, and the other is not. -/
theorem Machine.Executes.writes_outputs_shareIntoIndex :
    (Builtin.fresnel.isVoid = true ∧
      (Command.writes (.call .fresnel (.temporary 0) addresses)).Nodup ∧
      ∀ address ∈ Command.writes (.call .fresnel (.temporary 0) addresses),
        address.isConstant = false) ∧
    ∃ next, Executes (.ofScene .still) shareIntoIndex (.call .fresnel (.temporary 0) addresses)
        machine next ∧
      WritesOutputs (.ofScene .still) shareIntoIndex .fresnel (.temporary 0) addresses machine
        next := by
  refine ⟨⟨rfl, by decide, by decide⟩, ?_⟩
  obtain ⟨flow, next, hstep, -⟩ := exists_step
  have hexecutes : Executes (.ofScene .still) shareIntoIndex
      (.call .fresnel (.temporary 0) addresses) machine next :=
    ⟨commandAt, 28, flow, rfl, hstep⟩
  exact ⟨next, hexecutes, Executes.writes_outputs rfl (by decide) (by decide) hexecutes⟩

/-- The register for the share that is reflected does not hold it. -/
theorem Machine.shareIntoIndex_loses_share :
    ∃ next after, Executes (.ofScene .still) shareIntoIndex
        (.call .fresnel (.temporary 0) addresses) machine next ∧
      addresses.mapM (machine.registers.read shareIntoIndex.constants)
        = .ok [incident, normal, .uniformFloat 0.5, .uniformFloat 0.5, .varyingFloat #[2, 3]] ∧
      next.registers.target (.temporary 2) = .ok after ∧
      ¬ Builtin.fresnel.Writes ⟨.still, 2, 1, some #[true, false]⟩
        [incident, normal, .uniformFloat 0.5, .uniformFloat 0.5, .varyingFloat #[2, 3]] 3 after := by
  obtain ⟨flow, next, hstep, hstorage⟩ := exists_step
  rcases htarget : next.registers.target (.temporary 2) with fault | after
  · rw [htarget] at hstorage
    cases hstorage
  · rw [htarget] at hstorage
    refine ⟨next, after, ⟨commandAt, 28, flow, rfl, hstep⟩, rfl, htarget, fun hwrites => ?_⟩
    have hvarying := (Value.fits_iff.mp hwrites.fits).2.1
    rw [Except.ok.inj hstorage] at hvarying
    cases hvarying

end

end Shading
