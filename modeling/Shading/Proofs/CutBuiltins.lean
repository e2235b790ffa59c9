import Shading.Proofs.Upkeep

namespace Shading

/-!
# Builtins at a single point

The builtins that look at no other point than the one they compute at: given the cuts of their
arguments they reply with the cut of their reply.  The other builtins, which take differences along
the grid, are left out, and so are arguments of other types where a float is read.

* `Builtin.isPointwise` — the builtins that do not look at neighbours;
* `Builtin.floatPlaces` — the arguments that are read as floats;
* `Builtin.run_cut` — every pointwise builtin at a single point.
-/

variable {points i : Nat}

/-! ### Settings -/

/-- The builtins that compute at a point from what their arguments are there. -/
def Builtin.isPointwise : Builtin → Bool
  | .area | .calculatenormal | .derivative _ => false
  | _ => true

/-- The places of the arguments that are read as floats at every point, whatever their type is. -/
def Builtin.floatPlaces : Builtin → List Nat
  | .setComponent _ => [1]
  | .refract | .fresnel => [2]
  | _ => []

/-- The floats of triples one after another. -/
theorem getElem?_flatMap_triples {triples : Array Vec3} {c : Nat} (hc : c < 3) :
    (triples.flatMap fun v => #[v.x, v.y, v.z])[i * 3 + c]?
      = triples[i]?.bind fun v => #[v.x, v.y, v.z][c]? := by
  obtain ⟨list⟩ := triples
  rw [List.flatMap_toArray]
  simp only [List.getElem?_toArray]
  induction list generalizing i with
  | nil => rfl
  | cons v list ih =>
    rw [List.flatMap_cons]
    cases i with
    | zero =>
      rw [List.getElem?_append_left (by simpa using hc), Nat.zero_mul, Nat.zero_add]
      rfl
    | succ i =>
      have hplace : (i + 1) * 3 + c - 3 = i * 3 + c := by omega
      rw [List.getElem?_append_right (by simp; omega)]
      simpa [hplace] using ih

namespace Setting

variable {setting : Setting} {storage : Storage} {out : Value}

/-- What is left of a setting at point `i`. -/
def cut (setting : Setting) (i : Nat) : Setting :=
  ⟨setting.scene, 1, 1, setting.mask.map (cutMask i)⟩

/-- A tabulated array and the entry for a single point. -/
theorem tabulate_cut {α : Type} {f g : Nat → Except Fault α} {xs : Array α} (hi : i < points)
    (hfg : g 0 = f (storage.element i)) (h : tabulate (storage.size points) f = .ok xs) :
    ∃ x, xs[storage.element i]? = some x ∧ tabulate (storage.size 1) g = .ok #[x] := by
  obtain ⟨hsize, hxs⟩ := tabulate_eq_ok.mp h
  have hlt : storage.element i < xs.size := by
    rw [hsize]
    exact Value.element_lt hi
  have hx := Array.getElem?_eq_getElem hlt
  refine ⟨_, hx, tabulate_eq_ok.mpr ⟨?_, fun k y hy => ?_⟩⟩
  · cases storage <;> rfl
  · cases k with
    | zero =>
      obtain rfl : xs[storage.element i] = y := by simpa using hy
      rw [hfg]
      exact hxs _ _ hx
    | succ k => simp at hy

/-- The cut of a value made of given floats. -/
theorem cut_mk {type : ElementType} {xs ys : Buffer} (hi : i < points)
    (hxs : xs.size = type.components * storage.size points) (hys : ys.size = type.components)
    (h : ∀ c < type.components, ys[c]? = xs[storage.element i * type.components + c]?) :
    (Value.mk type storage (storage.size points) xs none).cut i
      = ⟨type, storage, storage.size 1, ys, none⟩ := by
  have hover : (Value.mk type storage (storage.size points) xs none).Over points :=
    ⟨.inr rfl, hxs⟩
  have hsize : ((Value.mk type storage (storage.size points) xs none).cut i).floats.size
      = type.components := hover.floats_cut rfl hi
  have hfloats : ((Value.mk type storage (storage.size points) xs none).cut i).floats = ys := by
    apply Array.ext_getElem?
    intro c
    by_cases hc : c < type.components
    · rw [h c hc]
      exact Value.getElem?_cut hc
    · rw [Array.getElem?_eq_none (by omega), Array.getElem?_eq_none (by omega)]
  rw [← hfloats]
  cases storage <;> rfl

@[simp] theorem cut_points : (setting.cut i).points = 1 := rfl

/-- A float computed at every point, and at point `i` alone. -/
theorem floats_cut {f g : Nat → Except Fault Float32} (hi : i < setting.points)
    (hfg : g 0 = f (storage.element i)) (h : setting.floats storage f = .ok out) :
    (setting.cut i).floats storage g = .ok (out.cut i) := by
  obtain ⟨-, xs, hxs, rfl⟩ := floats_eq_ok.mp h
  obtain ⟨x, hx, hg⟩ := tabulate_cut hi hfg hxs
  refine floats_eq_ok.mpr ⟨?_, #[x], hg, ?_⟩
  · rw [cut_points]
    cases storage <;> decide
  · refine cut_mk hi ?_ rfl fun c hc => ?_
    · rw [(tabulate_eq_ok.mp hxs).1]
      exact (Nat.one_mul _).symm
    · obtain rfl : c = 0 := Nat.lt_one_iff.mp hc
      have hone : storage.element i * ElementType.float.components + 0 = storage.element i :=
        Nat.mul_one _
      rw [hone, hx]
      rfl

/-- A triple computed at every point, and at point `i` alone. -/
theorem triples_cut {type : ElementType} {f g : Nat → Except Fault Vec3}
    (hi : i < setting.points) (htype : type.components = 3)
    (hfg : g 0 = f (storage.element i)) (h : setting.triples type storage f = .ok out) :
    (setting.cut i).triples type storage g = .ok (out.cut i) := by
  obtain ⟨-, xs, hxs, rfl⟩ := triples_eq_ok.mp h
  obtain ⟨v, hv, hg⟩ := tabulate_cut hi hfg hxs
  refine triples_eq_ok.mpr ⟨?_, #[v], hg, ?_⟩
  · rw [cut_points, htype]
    cases storage <;> decide
  · refine cut_mk hi ?_ ?_ fun c hc => ?_
    · rw [size_flatMap_triples, (tabulate_eq_ok.mp hxs).1, htype]
    · rw [size_flatMap_triples, htype]
      rfl
    · rw [htype] at hc ⊢
      rw [getElem?_flatMap_triples hc, hv]
      simp

end Setting

/-! ### Builtins with a result -/

namespace Setting

variable {setting : Setting} {arguments : Array Value} {out : Value}

/-- The triple that a result reads from one of the values it depends on. -/
theorem vec3_of_mem {value : Value} {values : List Value} (htriple : value.type.isTriple = true)
    (hmem : value ∈ values) :
    (value.cut i).vec3 0 = value.vec3 ((widestOf values).element i) :=
  Value.cut_vec3 (Value.components_of_isTriple htriple) (widestOf_eq_varying hmem)

theorem getElem?_arguments_cut {n : Nat} {value : Value} (h : arguments[n]? = some value) :
    (arguments.map (Value.cut · i))[n]? = some (value.cut i) := by
  rw [Array.getElem?_map, h]
  rfl

/-- A float computed from one triple. -/
theorem floatOfTriple_cut {user : String} {f : Vec3 → Float32} (hi : i < setting.points)
    (h : (do
      let p ← fetch arguments 0
      requireTriple user p
      setting.floats p.storage fun i => return f (← p.vec3 i)) = .ok out) :
    (do
      let p ← fetch (arguments.map (Value.cut · i)) 0
      requireTriple user p
      (setting.cut i).floats p.storage fun i => return f (← p.vec3 i)) = .ok (out.cut i) := by
  simp only [bind_eq_ok, fetch_eq_ok, requireTriple_eq_ok] at h ⊢
  obtain ⟨p, hp, _, htriple, h⟩ := h
  refine ⟨p.cut i, getElem?_arguments_cut hp, (), by rwa [Value.cut_type], ?_⟩
  rw [Value.cut_storage]
  refine floats_cut hi ?_ h
  rw [Value.cut_vec3 (Value.components_of_isTriple htriple) id]

theorem component_cut {axis : Axis} (hi : i < setting.points)
    (h : setting.component arguments axis = .ok out) :
    (setting.cut i).component (arguments.map (Value.cut · i)) axis = .ok (out.cut i) :=
  floatOfTriple_cut hi h

theorem length_cut (hi : i < setting.points) (h : setting.length arguments = .ok out) :
    (setting.cut i).length (arguments.map (Value.cut · i)) = .ok (out.cut i) :=
  floatOfTriple_cut hi h

theorem depth_cut (hi : i < setting.points) (h : setting.depth arguments = .ok out) :
    (setting.cut i).depth (arguments.map (Value.cut · i)) = .ok (out.cut i) :=
  floatOfTriple_cut hi h

theorem normalize_cut (hi : i < setting.points) (h : setting.normalize arguments = .ok out) :
    (setting.cut i).normalize (arguments.map (Value.cut · i)) = .ok (out.cut i) := by
  unfold normalize at h ⊢
  simp only [bind_eq_ok, fetch_eq_ok, requireTriple_eq_ok] at h ⊢
  obtain ⟨n, hn, _, htriple, h⟩ := h
  have hthree := Value.components_of_isTriple htriple
  refine ⟨n.cut i, getElem?_arguments_cut hn, (), by rwa [Value.cut_type], ?_⟩
  rw [Value.cut_storage, Value.cut_type]
  refine triples_cut hi hthree ?_ h
  rw [Value.cut_vec3 hthree id]

theorem distance_cut (hi : i < setting.points) (h : setting.distance arguments = .ok out) :
    (setting.cut i).distance (arguments.map (Value.cut · i)) = .ok (out.cut i) := by
  unfold distance at h ⊢
  simp only [bind_eq_ok, fetch_eq_ok, requireTriple_eq_ok] at h ⊢
  obtain ⟨p, hp, q, hq, _, hptriple, _, hqtriple, h⟩ := h
  refine ⟨p.cut i, getElem?_arguments_cut hp, q.cut i, getElem?_arguments_cut hq, (),
    by rwa [Value.cut_type], (), by rwa [Value.cut_type], ?_⟩
  have hstorage : widestOf [p.cut i, q.cut i] = widestOf [p, q] := by simp [widestOf]
  have hpread : (p.cut i).vec3 0 = p.vec3 ((widestOf [p, q]).element i) :=
    vec3_of_mem hptriple (by simp)
  have hqread : (q.cut i).vec3 0 = q.vec3 ((widestOf [p, q]).element i) :=
    vec3_of_mem hqtriple (by simp)
  rw [hstorage]
  refine floats_cut hi ?_ h
  rw [hpread, hqread]

theorem reflect_cut (hi : i < setting.points) (h : setting.reflect arguments = .ok out) :
    (setting.cut i).reflect (arguments.map (Value.cut · i)) = .ok (out.cut i) := by
  unfold reflect at h ⊢
  simp only [bind_eq_ok, fetch_eq_ok, requireTriple_eq_ok] at h ⊢
  obtain ⟨p, hp, q, hq, _, hptriple, _, hqtriple, h⟩ := h
  refine ⟨p.cut i, getElem?_arguments_cut hp, q.cut i, getElem?_arguments_cut hq, (),
    by rwa [Value.cut_type], (), by rwa [Value.cut_type], ?_⟩
  have hstorage : widestOf [p.cut i, q.cut i] = widestOf [p, q] := by simp [widestOf]
  have hpread : (p.cut i).vec3 0 = p.vec3 ((widestOf [p, q]).element i) :=
    vec3_of_mem hptriple (by simp)
  have hqread : (q.cut i).vec3 0 = q.vec3 ((widestOf [p, q]).element i) :=
    vec3_of_mem hqtriple (by simp)
  rw [hstorage]
  refine triples_cut hi rfl ?_ h
  rw [hpread, hqread]

theorem refract_cut (hi : i < setting.points)
    (hfloat : ∀ eta, arguments[2]? = some eta → eta.storage = .varying → eta.type = .float)
    (h : setting.refract arguments = .ok out) :
    (setting.cut i).refract (arguments.map (Value.cut · i)) = .ok (out.cut i) := by
  unfold refract at h ⊢
  simp only [bind_eq_ok, fetch_eq_ok, requireTriple_eq_ok] at h ⊢
  obtain ⟨p, hp, q, hq, eta, heta, _, hptriple, _, hqtriple, h⟩ := h
  refine ⟨p.cut i, getElem?_arguments_cut hp, q.cut i, getElem?_arguments_cut hq, eta.cut i,
    getElem?_arguments_cut heta, (), by rwa [Value.cut_type], (), by rwa [Value.cut_type], ?_⟩
  have hstorage : widestOf [p.cut i, q.cut i, eta.cut i] = widestOf [p, q, eta] := by
    simp [widestOf]
  have hpread : (p.cut i).vec3 0 = p.vec3 ((widestOf [p, q, eta]).element i) :=
    vec3_of_mem hptriple (by simp)
  have hqread : (q.cut i).vec3 0 = q.vec3 ((widestOf [p, q, eta]).element i) :=
    vec3_of_mem hqtriple (by simp)
  have hetaread : (eta.cut i).float 0 = eta.float ((widestOf [p, q, eta]).element i) :=
    Value.cut_float (fun hvarying => Value.components_of_float (hfloat eta heta hvarying))
      (widestOf_eq_varying (by simp))
  rw [hstorage]
  refine triples_cut hi rfl ?_ h
  rw [hpread, hqread, hetaread]

theorem faceforward_cut (hi : i < setting.points) (h : setting.faceforward arguments = .ok out) :
    (setting.cut i).faceforward (arguments.map (Value.cut · i)) = .ok (out.cut i) := by
  unfold faceforward at h ⊢
  simp only [bind_eq_ok, fetch_eq_ok, requireTriple_eq_ok] at h ⊢
  obtain ⟨n, hn, incident, hincident, _, hntriple, _, hitriple, _, hrtriple, h⟩ := h
  have hreference : (arguments.map (Value.cut · i))[2]?.getD (n.cut i)
      = (arguments[2]?.getD n).cut i := by
    rw [Array.getElem?_map]
    cases arguments[2]? <;> rfl
  generalize arguments[2]?.getD n = reference at hrtriple h hreference
  have hthree := Value.components_of_isTriple hntriple
  refine ⟨n.cut i, getElem?_arguments_cut hn, incident.cut i, getElem?_arguments_cut hincident, (),
    by rwa [Value.cut_type], (), by rwa [Value.cut_type], (), by rwa [hreference, Value.cut_type], ?_⟩
  have hstorage : widestOf [n.cut i, incident.cut i, reference.cut i]
      = widestOf [n, incident, reference] := by simp [widestOf]
  have hnread : (n.cut i).vec3 0 = n.vec3 ((widestOf [n, incident, reference]).element i) :=
    vec3_of_mem hntriple (by simp)
  have hiread : (incident.cut i).vec3 0
      = incident.vec3 ((widestOf [n, incident, reference]).element i) :=
    vec3_of_mem hitriple (by simp)
  have hrread : (reference.cut i).vec3 0
      = reference.vec3 ((widestOf [n, incident, reference]).element i) :=
    vec3_of_mem hrtriple (by simp)
  rw [hreference, hstorage, Value.cut_type]
  refine triples_cut hi hthree ?_ h
  rw [hnread, hiread, hrread]

theorem rotate_cut (hi : i < setting.points) (h : setting.rotate arguments = .ok out) :
    (setting.cut i).rotate (arguments.map (Value.cut · i)) = .ok (out.cut i) := by
  unfold rotate at h ⊢
  simp only [bind_eq_ok, fetch_eq_ok, requireTriple_eq_ok, requireUniform_eq_ok] at h ⊢
  obtain ⟨q, hq, angle, hangle, p0, hp0, p1, hp1, _, htriple, _, hangle', _, hp0', _, hp1', v1, hv1,
    v0, hv0, x, hx, h⟩ := h
  have hthree := Value.components_of_isTriple htriple
  -- all but the first argument are uniform, and so their own cuts
  refine ⟨q.cut i, getElem?_arguments_cut hq, angle.cut i, getElem?_arguments_cut hangle, p0.cut i,
    getElem?_arguments_cut hp0, p1.cut i, getElem?_arguments_cut hp1, (), by rwa [Value.cut_type],
    (), by rwa [Value.cut_storage], (), by rwa [Value.cut_storage], (), by rwa [Value.cut_storage],
    v1, by rwa [Value.cut_uniform hp1'], v0, by rwa [Value.cut_uniform hp0'], x,
    by rwa [Value.cut_uniform hangle'], ?_⟩
  rw [Value.cut_storage, Value.cut_type]
  refine triples_cut hi hthree ?_ h
  rw [Value.cut_vec3 hthree id]

theorem leadingMatrix_cut {scene : Scene} {leading : List Value} {matrix : Mat4}
    (h : leadingMatrix scene leading = .ok matrix) :
    leadingMatrix scene (leading.map (Value.cut · i)) = .ok matrix := by
  have hsame : leading.map (Value.cut · i) = leading.map id :=
    List.map_congr_left fun value hvalue => Value.cut_uniform (uniform_of_leadingMatrix h value hvalue)
  rw [hsame, List.map_id, h]

theorem transform_cut {kind : TransformKind} (hi : i < setting.points)
    (h : setting.transform arguments kind = .ok out) :
    (setting.cut i).transform (arguments.map (Value.cut · i)) kind = .ok (out.cut i) := by
  unfold transform at h ⊢
  cases hback : arguments.back? with
  | none => simp [hback] at h
  | some p =>
    simp only [hback, pure_bind, bind_eq_ok, requireTriple_eq_ok] at h
    obtain ⟨_, htriple, matrix, hmatrix, h⟩ := h
    have hthree := Value.components_of_isTriple htriple
    have hpop : (arguments.map (Value.cut · i)).pop.toList
        = arguments.pop.toList.map (Value.cut · i) := by simp
    simp only [Array.back?_map, hback, Option.map_some, pure_bind, bind_eq_ok, requireTriple_eq_ok]
    refine ⟨(), by rwa [Value.cut_type], matrix, ?_, ?_⟩
    · rw [hpop]
      exact leadingMatrix_cut hmatrix
    · rw [Value.cut_storage, Value.cut_type]
      refine triples_cut hi hthree ?_ h
      rw [Value.cut_vec3 hthree id]

end Setting

/-! ### Builtins that write their arguments -/

namespace Setting

variable {setting : Setting} {arguments values : Array Value}

theorem isActive_cut {b : Bool} (h : setting.isActive i = .ok b) :
    (setting.cut i).isActive 0 = .ok b := by
  unfold isActive at h ⊢
  cases hmask : setting.mask with
  | none =>
    rw [hmask] at h
    simp only [cut, hmask, Option.map_none]
    exact h
  | some mask =>
    rw [hmask] at h
    simp only [cut, hmask, Option.map_some]
    exact congrArg Except.ok (getD_of_getElem? (fetch_eq_ok.mp h) false)

theorem isActiveAt_cut : isActiveAt (setting.cut i).mask 0 = isActiveAt setting.mask i :=
  isActiveAt_cutMask

/-- The loop that writes a component, at a single point. -/
theorem writeComponent_cut {p x : Value} {axis : Axis} {floats : Buffer} (hi : i < setting.points)
    (htriple : p.type.isTriple = true) (hfloat : x.storage = .varying → x.type = .float)
    (hp : p.Over setting.points)
    (hstorage : p.isUniform = true → x.isVarying = false)
    (h : forPlaces p.size p.floats (setting.writeComponent p x axis) = .ok floats) :
    forPlaces (p.cut i).size (p.cut i).floats
        ((setting.cut i).writeComponent (p.cut i) (x.cut i) axis)
      = .ok ({ p with floats := floats }.cut i).floats := by
  have hthree := Value.components_of_isTriple htriple
  obtain huniform | hvarying := p.storage.uniform_or_varying
  · -- a uniform triple is written at no point in particular
    have hx : x.storage = .uniform := by
      have := hstorage (by simp [Value.isUniform, huniform])
      obtain h | h := x.storage.uniform_or_varying
      · exact h
      · simp [Value.isVarying, h] at this
    have hsame : (setting.cut i).writeComponent p x axis = setting.writeComponent p x axis := by
      funext e zs
      simp [writeComponent, reaches, Value.isVarying, huniform]
    rw [Value.cut_uniform huniform, Value.cut_uniform hx, hsame, h,
      Value.cut_with_floats_uniform huniform]
  · obtain ⟨hready, rfl⟩ := (writeComponents_eq_ok hvarying).mp h
    have hsize := hp.size_of_varying hvarying
    have hcut : (p.cut i).floats.size = 3 := by
      rw [hp.floats_cut (by rw [hsize, hvarying]; rfl) hi, hthree]
    have hone : (p.cut i).size = 1 := by rw [Value.cut_varying hvarying]
    have hread : (x.cut i).float 0 = x.float i :=
      Value.cut_float (fun hvarying => Value.components_of_float (hfloat hvarying)) fun _ => rfl
    refine (writeComponents_eq_ok (by rw [Value.cut_storage, hvarying])).mpr ⟨fun e he => ?_, ?_⟩
    · obtain rfl : e = 0 := by omega
      obtain ⟨b, hb, hready⟩ := hready i (by omega)
      refine ⟨b, isActive_cut hb, fun hactive => ⟨by omega, ?_⟩⟩
      rw [hread]
      exact (hready hactive).2
    · rw [Value.cut_rewriteAt]
      refine rewriteAt_congr fun c old hold => ?_
      have hc : c < 3 := by
        rw [← hcut]
        exact (Array.getElem?_eq_some_iff.mp hold).1
      have hlt : i < p.size := by omega
      simp only [hvarying, Storage.element, hthree, block_div hc, block_mod hc,
        Nat.div_eq_of_lt hc, Nat.mod_eq_of_lt hc, hread, isActiveAt_cut, hlt, hone]
      simp

theorem setComponent_cut {axis : Axis} (hi : i < setting.points)
    (hover : Value.AllOver setting.points arguments)
    (hfloat : ∀ x, arguments[1]? = some x → x.storage = .varying → x.type = .float)
    (h : setting.setComponent arguments axis = .ok values) :
    (setting.cut i).setComponent (arguments.map (Value.cut · i)) axis
      = .ok (values.map (Value.cut · i)) := by
  obtain ⟨p, x, floats, hp, hx, htriple, hstorage, hfloats, rfl⟩ := setComponent_eq_ok.mp h
  refine setComponent_eq_ok.mpr ⟨p.cut i, x.cut i, _, getElem?_arguments_cut hp,
    getElem?_arguments_cut hx, by rwa [Value.cut_type], ?_,
    writeComponent_cut hi htriple (hfloat x hx) (hover 0 p hp) hstorage hfloats, ?_⟩
  · simpa [Value.isUniform, Value.isVarying] using hstorage
  · rw [Array.map_setIfInBounds, Value.cut_eq_with_floats]

theorem coefficients_cut {incident n eta : Value} (hincident : incident.type.isTriple = true)
    (hn : n.type.isTriple = true) (heta : eta.storage = .varying → eta.type = .float) :
    coefficients (incident.cut i) (n.cut i) (eta.cut i) 0 = coefficients incident n eta i := by
  have hread : ∀ v : Value, v.type.isTriple = true → (v.cut i).vec3 0 = v.vec3 i :=
    fun v hv => Value.cut_vec3 (Value.components_of_isTriple hv) fun _ => rfl
  have hetaread : (eta.cut i).float 0 = eta.float i :=
    Value.cut_float (fun hvarying => Value.components_of_float (heta hvarying)) fun _ => rfl
  rw [coefficients, coefficients, hread incident hincident, hread n hn, hetaread]

/-- The coefficients that the loop leaves in one of the outputs, at a single point. -/
theorem coefficientOr_cut {incident n eta out : Value} {pick : Float32 × Float32 → Float32}
    (hincident : incident.type.isTriple = true) (hn : n.type.isTriple = true)
    (heta : eta.storage = .varying → eta.type = .float) (hi : i < setting.points)
    (hsize : (out.cut i).floats.size = 1) (hout : out.type = .float)
    (hstorage : out.storage = .varying) :
    { out with
        floats := rewriteAt (fun k => k < setting.points)
          (setting.coefficientOr incident n eta pick) out.floats }.cut i
      = { out.cut i with
          floats := rewriteAt (fun k => k < 1)
            ((setting.cut i).coefficientOr (incident.cut i) (n.cut i) (eta.cut i) pick)
            (out.cut i).floats } := by
  rw [Value.cut_eq_with_floats, Value.cut_rewriteAt]
  refine congrArg (fun floats => { out.cut i with floats := floats }) ?_
  refine rewriteAt_congr fun c old hold => ?_
  obtain rfl : c = 0 := by
    have hlt := (Array.getElem?_eq_some_iff.mp hold).1
    omega
  simp only [hstorage, Storage.element, Value.components_of_float hout, Nat.mul_one, Nat.add_zero,
    hi, coefficientOr, isActiveAt_cut, coefficients_cut hincident hn heta]
  simp

theorem fresnel_cut (hi : i < setting.points) (hover : Value.AllOver setting.points arguments)
    (hfloat : ∀ eta, arguments[2]? = some eta → eta.storage = .varying → eta.type = .float)
    (h : setting.fresnel arguments = .ok values) :
    (setting.cut i).fresnel (arguments.map (Value.cut · i)) = .ok (values.map (Value.cut · i)) := by
  obtain ⟨incident, n, eta, r, t, kr, kt, floats, hincident, hn, heta, hr, ht, htriple, htriple',
    hkr, hkt, hfloats, rfl⟩ := fresnel_eq_ok.mp h
  obtain ⟨hready, rfl⟩ := writeCoefficients_eq_ok.mp hfloats
  have heta' := hfloat eta heta
  obtain ⟨hkrtype, hkrstorage, hkrsize⟩ := Value.fits_iff.mp (Value.fits_of_ensure hkr)
  obtain ⟨hkttype, hktstorage, hktsize⟩ := Value.fits_iff.mp (Value.fits_of_ensure hkt)
  have hkrover : kr.Over setting.points := Value.ensure_over (hover 3 r hr) hkr
  have hktover : kt.Over setting.points := Value.ensure_over (hover 4 t ht) hkt
  have hkrcut : (kr.cut i).floats.size = 1 := by
    rw [hkrover.floats_cut (by rw [hkrsize, hkrstorage]; rfl) hi, Value.components_of_float hkrtype]
  have hktcut : (kt.cut i).floats.size = 1 := by
    rw [hktover.floats_cut (by rw [hktsize, hktstorage]; rfl) hi, Value.components_of_float hkttype]
  refine fresnel_eq_ok.mpr ⟨incident.cut i, n.cut i, eta.cut i, r.cut i, t.cut i, kr.cut i,
    kt.cut i, _, getElem?_arguments_cut hincident, getElem?_arguments_cut hn,
    getElem?_arguments_cut heta, getElem?_arguments_cut hr, getElem?_arguments_cut ht,
    by rwa [Value.cut_type], by rwa [Value.cut_type], Value.ensure_cut (hover 3 r hr) hi hkr,
    Value.ensure_cut (hover 4 t ht) hi hkt, writeCoefficients_eq_ok.mpr ⟨fun e he => ?_, rfl⟩, ?_⟩
  · obtain rfl : e = 0 := Nat.lt_one_iff.mp he
    obtain ⟨b, hb, hready⟩ := hready i hi
    refine ⟨b, isActive_cut hb, fun hactive => ⟨Nat.lt_of_lt_of_eq Nat.one_pos hkrcut.symm,
      Nat.lt_of_lt_of_eq Nat.one_pos hktcut.symm, ?_⟩⟩
    rw [coefficients_cut htriple htriple' heta']
    exact (hready hactive).2.2
  · rw [Array.map_setIfInBounds, Array.map_setIfInBounds,
      coefficientOr_cut htriple htriple' heta' hi hkrcut hkrtype hkrstorage,
      coefficientOr_cut htriple htriple' heta' hi hktcut hkttype hktstorage, cut_points]

end Setting

/-! ### All pointwise builtins -/

/-- What is left of a reply at point `i`. -/
def Reply.cut (i : Nat) : Reply → Reply
  | .result value => .result (value.cut i)
  | .arguments values => .arguments (values.map (Value.cut · i))

/-- **Builtins.**  What a pointwise builtin replies at a point depends on its arguments there. -/
theorem Builtin.run_cut {function : Builtin} {setting : Setting} {arguments : Array Value}
    {reply : Reply} (hpointwise : function.isPointwise = true) (hi : i < setting.points)
    (hover : Value.AllOver setting.points arguments)
    (hfloat : ∀ n ∈ function.floatPlaces, ∀ value, arguments[n]? = some value →
      value.storage = .varying → value.type = .float)
    (h : function.run setting arguments = .ok reply) :
    function.run (setting.cut i) (arguments.map (Value.cut · i)) = .ok (reply.cut i) := by
  -- a builtin with a result replies with it
  have hresult : ∀ {whole single : Except Fault Value},
      (∀ out, whole = .ok out → single = .ok (out.cut i)) → Reply.result <$> whole = .ok reply →
      Reply.result <$> single = .ok (reply.cut i) := by
    intro whole single hcut hreply
    obtain ⟨out, hout, rfl⟩ := map_eq_ok.mp hreply
    exact map_eq_ok.mpr ⟨_, hcut out hout, rfl⟩
  cases function with
  | area | calculatenormal | derivative => cases hpointwise
  | setComponent axis =>
    obtain ⟨values, hvalues, rfl⟩ := map_eq_ok.mp h
    exact map_eq_ok.mpr
      ⟨_, Setting.setComponent_cut hi hover (hfloat 1 (by simp [floatPlaces])) hvalues, rfl⟩
  | fresnel =>
    obtain ⟨values, hvalues, rfl⟩ := map_eq_ok.mp h
    exact map_eq_ok.mpr
      ⟨_, Setting.fresnel_cut hi hover (hfloat 2 (by simp [floatPlaces])) hvalues, rfl⟩
  | component axis => exact hresult (fun _ => Setting.component_cut hi) h
  | length => exact hresult (fun _ => Setting.length_cut hi) h
  | normalize => exact hresult (fun _ => Setting.normalize_cut hi) h
  | distance => exact hresult (fun _ => Setting.distance_cut hi) h
  | faceforward => exact hresult (fun _ => Setting.faceforward_cut hi) h
  | reflect => exact hresult (fun _ => Setting.reflect_cut hi) h
  | refract =>
    exact hresult (fun _ => Setting.refract_cut hi (hfloat 2 (by simp [floatPlaces]))) h
  | rotate => exact hresult (fun _ => Setting.rotate_cut hi) h
  | transform kind => exact hresult (fun _ => Setting.transform_cut hi) h
  | depth => exact hresult (fun _ => Setting.depth_cut hi) h

end Shading
