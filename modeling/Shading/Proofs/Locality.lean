import Shading.Proofs.Outputs

namespace Shading

/-!
# Builtins are local to a point

What a pointwise builtin replies at a point depends on its uniform arguments and on the elements
that its varying arguments have there.  It checks the types of triples, but not those of floats: of
any varying argument that it takes for floats, a point reads the float with its own number.

* `Value.AgreesAt`, `Reply.AgreesAt` — values and replies that are the same to a point;
* `Value.asFloats` — what is read of an argument that is taken for floats;
* `Builtin.Accepts` — what builtins check;
* `Builtin.run_local` — what two calls have in common;
* `Builtin.refract_reads_neighbour` — an argument of another type, read at the wrong place.
-/

/-! ### Values that a point cannot tell apart -/

namespace Value

variable {value value' : Value} {i : Nat}

/-- The two values are the same to point `i`: uniform values are equal, and varying ones have the
    same element there. -/
structure AgreesAt (i : Nat) (value value' : Value) : Prop where
  type_eq : value.type = value'.type
  storage_eq : value.storage = value'.storage
  text_eq : value.text = value'.text
  uniform : value.storage = .uniform → value = value'
  varying : value.storage = .varying → ∀ c < value.components,
    value.floats[i * value.components + c]? = value'.floats[i * value.components + c]?

theorem components_eq (h : value.type = value'.type) : value.components = value'.components := by
  rw [components, h, components]

theorem AgreesAt.cut_eq (h : value.AgreesAt i value') : value.cut i = value'.cut i := by
  obtain hstorage | hstorage := value.storage.uniform_or_varying
  · rw [h.uniform hstorage]
  · rw [cut_varying hstorage, cut_varying (h.storage_eq ▸ hstorage), ← components_eq h.type_eq,
      cutFloats_congr (h.varying hstorage), h.type_eq, h.storage_eq, h.text_eq]

theorem agreesAt_of_cut_eq (h : value.cut i = value'.cut i) : value.AgreesAt i value' := by
  have htype : value.type = value'.type := by simpa using congrArg Value.type h
  have hstorage : value.storage = value'.storage := by simpa using congrArg Value.storage h
  obtain huniform | hvarying := value.storage.uniform_or_varying
  · rw [cut_uniform huniform, cut_uniform (hstorage ▸ huniform)] at h
    subst h
    exact ⟨rfl, rfl, rfl, fun _ => rfl, fun _ _ _ => rfl⟩
  · refine ⟨htype, hstorage, ?_, fun huniform => ?_, fun _ c hc => ?_⟩
    · rw [cut_varying hvarying, cut_varying (hstorage ▸ hvarying)] at h
      injection h
    · rw [hvarying] at huniform
      cases huniform
    · have hcomponents := components_eq htype
      have hfloats : (value.cut i).floats[c]? = (value'.cut i).floats[c]? := by rw [h]
      rw [getElem?_cut hc, getElem?_cut (hcomponents ▸ hc), ← hstorage, hvarying,
        ← hcomponents] at hfloats
      exact hfloats

/-- Two lists of arguments that are the same to point `i`. -/
structure AllAgreeAt (i : Nat) (values values' : Array Value) : Prop where
  size_eq : values.size = values'.size
  agree : ∀ (n : Nat) value value', values[n]? = some value → values'[n]? = some value' →
    value.AgreesAt i value'

theorem AllAgreeAt.map_cut_eq {values values' : Array Value} (h : AllAgreeAt i values values') :
    values.map (cut · i) = values'.map (cut · i) := by
  apply Array.ext_getElem?
  intro n
  rw [Array.getElem?_map, Array.getElem?_map]
  rcases hvalue : values[n]? with _ | value
  · rw [Array.getElem?_eq_none_iff, h.size_eq, ← Array.getElem?_eq_none_iff] at hvalue
    rw [hvalue]
  · have hlt : n < values'.size := h.size_eq ▸ (Array.getElem?_eq_some_iff.mp hvalue).1
    have hvalue' := Array.getElem?_eq_getElem hlt
    rw [hvalue', Option.map_some, Option.map_some, (h.agree n _ _ hvalue hvalue').cut_eq]

theorem allAgreeAt_of_map_cut_eq {values values' : Array Value}
    (h : values.map (cut · i) = values'.map (cut · i)) : AllAgreeAt i values values' := by
  refine ⟨by simpa using congrArg Array.size h, fun n value value' hvalue hvalue' => ?_⟩
  have hcut : (values.map (cut · i))[n]? = (values'.map (cut · i))[n]? := by rw [h]
  rw [Array.getElem?_map, Array.getElem?_map, hvalue, hvalue'] at hcut
  exact agreesAt_of_cut_eq (Option.some.inj hcut)

/-- A varying value read as if it were of floats, one for each of its elements. -/
def asFloats (value : Value) : Value :=
  match value.storage with
  | .uniform => value
  | .varying => { value with
      type := .float
      floats := Array.ofFn fun k : Fin value.size => value.floats.getD k 0 }

theorem asFloats_uniform (h : value.storage = .uniform) : value.asFloats = value := by
  rw [asFloats, h]

theorem asFloats_varying (h : value.storage = .varying) : value.asFloats = { value with
    type := .float
    floats := Array.ofFn fun k : Fin value.size => value.floats.getD k 0 } := by
  rw [asFloats, h]

@[simp] theorem asFloats_storage : value.asFloats.storage = value.storage := by
  unfold asFloats
  split <;> simp_all

theorem type_asFloats (h : value.storage = .varying) : value.asFloats.type = .float := by
  rw [asFloats_varying h]

theorem Over.asFloats {points : Nat} (h : value.Over points) : value.asFloats.Over points := by
  obtain hstorage | hstorage := value.storage.uniform_or_varying
  · rwa [asFloats_uniform hstorage]
  · rw [asFloats_varying hstorage]
    refine ⟨.inr ?_, ?_⟩
    · rw [h.size_of_varying hstorage, hstorage]
      rfl
    · simp [components, ElementType.components]

/-- The floats that are read are the same. -/
theorem float_asFloats {k : Nat} {x : Float32} (hk : value.storage = .varying → k < value.size)
    (h : value.float k = .ok x) : value.asFloats.float k = .ok x := by
  obtain hstorage | hstorage := value.storage.uniform_or_varying
  · rwa [asFloats_uniform hstorage]
  · have hfloat : value.floats[k]? = some x := by
      rw [float, hstorage] at h
      exact fetch_eq_ok.mp h
    have hlt := hk hstorage
    rw [float, asFloats_storage, hstorage, fetch_eq_ok, asFloats_varying hstorage]
    show (Array.ofFn fun k : Fin value.size => value.floats.getD k 0)[k]? = some x
    rw [Array.getElem?_ofFn, dif_pos hlt, getD_of_getElem? hfloat]

/-- All that point `i` has of a value read as floats is one float. -/
theorem AgreesAt.asFloats (h : value.AgreesAt i value')
    (hsize : value.storage = .varying → value.size = value'.size)
    (hfloat : value.storage = .varying → value.floats[i]? = value'.floats[i]?) :
    value.asFloats.AgreesAt i value'.asFloats := by
  obtain hstorage | hstorage := value.storage.uniform_or_varying
  · rw [h.uniform hstorage]
    exact agreesAt_of_cut_eq rfl
  · have hstorage' : value'.storage = .varying := h.storage_eq ▸ hstorage
    rw [asFloats_varying hstorage, asFloats_varying hstorage']
    refine ⟨rfl, h.storage_eq, h.text_eq, by simp [hstorage], fun _ c hc => ?_⟩
    obtain rfl : c = 0 := Nat.lt_one_iff.mp hc
    show (Array.ofFn fun k : Fin value.size => value.floats.getD k 0)[i * 1 + 0]?
      = (Array.ofFn fun k : Fin value'.size => value'.floats.getD k 0)[i * 1 + 0]?
    simp only [Nat.mul_one, Nat.add_zero, Array.getElem?_ofFn, Array.getD_eq_getD_getElem?,
      hfloat hstorage, hsize hstorage]

end Value

/-- The two replies are the same to point `i`. -/
inductive Reply.AgreesAt (i : Nat) : Reply → Reply → Prop
  | result {value value' : Value} (h : value.AgreesAt i value') :
      AgreesAt i (.result value) (.result value')
  | arguments {values values' : Array Value} (h : Value.AllAgreeAt i values values') :
      AgreesAt i (.arguments values) (.arguments values')

theorem Reply.agreesAt_of_cut_eq {i : Nat} {reply reply' : Reply} (h : reply.cut i = reply'.cut i) :
    reply.AgreesAt i reply' := by
  cases reply with
  | result value =>
    cases reply' with
    | result value' => exact .result (Value.agreesAt_of_cut_eq (Reply.result.inj h))
    | arguments values' => cases h
  | arguments values =>
    cases reply' with
    | result value' => cases h
    | arguments values' => exact .arguments (Value.allAgreeAt_of_map_cut_eq (Reply.arguments.inj h))

/-! ### Arguments read as floats -/

namespace Setting

variable {setting : Setting}

theorem writeComponent_asFloats {p x : Value} {axis : Axis} {k : Nat} {floats next : Buffer}
    (hk : x.storage = .varying → k < x.size)
    (h : setting.writeComponent p x axis k floats = .ok next) :
    setting.writeComponent p x.asFloats axis k floats = .ok next := by
  unfold writeComponent at h ⊢
  obtain ⟨active, hactive, h⟩ := bind_eq_ok.mp h
  refine bind_eq_ok.mpr ⟨active, hactive, ?_⟩
  cases active with
  | false => exact h
  | true =>
    obtain ⟨y, hy, h⟩ := bind_eq_ok.mp h
    exact bind_eq_ok.mpr ⟨y, Value.float_asFloats hk hy, h⟩

theorem writeCoefficients_asFloats {incident n eta : Value} {k : Nat}
    {floats next : Buffer × Buffer} (hk : eta.storage = .varying → k < eta.size)
    (h : setting.writeCoefficients incident n eta k floats = .ok next) :
    setting.writeCoefficients incident n eta.asFloats k floats = .ok next := by
  unfold writeCoefficients at h ⊢
  obtain ⟨active, hactive, h⟩ := bind_eq_ok.mp h
  refine bind_eq_ok.mpr ⟨active, hactive, ?_⟩
  cases active with
  | false => exact h
  | true =>
    obtain ⟨both, hboth, h⟩ := bind_eq_ok.mp h
    refine bind_eq_ok.mpr ⟨both, ?_, h⟩
    simp only [coefficients, bind_eq_ok] at hboth ⊢
    obtain ⟨v, hv, m, hm, y, hy, hboth⟩ := hboth
    exact ⟨v, hv, m, hm, y, Value.float_asFloats hk hy, hboth⟩

end Setting

namespace Builtin

variable {function : Builtin} {setting : Setting} {arguments : Array Value} {reply : Reply}
  {i : Nat}

/-- The arguments as a builtin reads them. -/
def readAsFloats (function : Builtin) (arguments : Array Value) : Array Value :=
  arguments.mapIdx fun n value => if n ∈ function.floatPlaces then value.asFloats else value

theorem getElem?_readAsFloats {n : Nat} : (function.readAsFloats arguments)[n]?
    = arguments[n]?.map fun value => if n ∈ function.floatPlaces then value.asFloats else value :=
  Array.getElem?_mapIdx

theorem getElem?_readAsFloats_of_mem {n : Nat} {value : Value} (hn : n ∈ function.floatPlaces)
    (h : arguments[n]? = some value) :
    (function.readAsFloats arguments)[n]? = some value.asFloats := by
  rw [getElem?_readAsFloats, h, Option.map_some, if_pos hn]

theorem getElem?_readAsFloats_of_not_mem {n : Nat} (hn : n ∉ function.floatPlaces) :
    (function.readAsFloats arguments)[n]? = arguments[n]? := by
  simp only [getElem?_readAsFloats, if_neg hn, Option.map_id']

theorem readAsFloats_setIfInBounds {n : Nat} {value : Value} (hn : n ∉ function.floatPlaces) :
    function.readAsFloats (arguments.setIfInBounds n value)
      = (function.readAsFloats arguments).setIfInBounds n value := by
  apply Array.ext_getElem?
  intro k
  rw [getElem?_readAsFloats, Array.getElem?_setIfInBounds, Array.getElem?_setIfInBounds]
  by_cases hk : n = k
  · subst hk
    rw [if_pos rfl, if_pos rfl, readAsFloats, Array.size_mapIdx]
    simp only [if_neg hn]
    split <;> rfl
  · rw [if_neg hk, if_neg hk, getElem?_readAsFloats]

theorem allOver_readAsFloats {points : Nat} (h : Value.AllOver points arguments) :
    Value.AllOver points (function.readAsFloats arguments) := by
  intro n value hvalue
  rw [getElem?_readAsFloats, Option.map_eq_some_iff] at hvalue
  obtain ⟨held, hheld, rfl⟩ := hvalue
  split
  · exact (h n held hheld).asFloats
  · exact h n held hheld

/-- The reply as if to the arguments as the builtin reads them. -/
def replyAsFloats (function : Builtin) : Reply → Reply
  | .result value => .result value
  | .arguments values => .arguments (function.readAsFloats values)

theorem readAsFloats_of_floatPlaces (h : function.floatPlaces = []) :
    function.readAsFloats arguments = arguments := by
  apply Array.ext_getElem?
  intro n
  exact getElem?_readAsFloats_of_not_mem (by simp [h])

end Builtin

namespace Setting

variable {setting : Setting} {arguments : Array Value}

theorem refract_readAsFloats {out : Value} (hover : Value.AllOver setting.points arguments)
    (h : setting.refract arguments = .ok out) :
    setting.refract (Builtin.readAsFloats .refract arguments) = .ok out := by
  unfold refract at h ⊢
  simp only [bind_eq_ok, fetch_eq_ok, requireTriple_eq_ok] at h ⊢
  obtain ⟨p, hp, q, hq, eta, heta, _, hptriple, _, hqtriple, h⟩ := h
  refine ⟨p, ?_, q, ?_, eta.asFloats, Builtin.getElem?_readAsFloats_of_mem (by decide) heta, (),
    hptriple, (), hqtriple, ?_⟩
  · rwa [Builtin.getElem?_readAsFloats_of_not_mem (by decide)]
  · rwa [Builtin.getElem?_readAsFloats_of_not_mem (by decide)]
  have hwidest : widestOf [p, q, eta.asFloats] = widestOf [p, q, eta] := by simp [widestOf]
  rw [hwidest]
  refine triples_mono (fun k hk v hv => ?_) h
  simp only [bind_eq_ok] at hv ⊢
  obtain ⟨incident, hincident, normal, hnormal, x, hx, hv⟩ := hv
  refine ⟨incident, hincident, normal, hnormal, x, Value.float_asFloats (fun hvarying => ?_) hx, hv⟩
  rw [widestOf_eq_varying (show eta ∈ [p, q, eta] by simp) hvarying] at hk
  rwa [(hover 2 eta heta).size_of_varying hvarying]

theorem setComponent_readAsFloats {axis : Axis} {out : Array Value}
    (hover : Value.AllOver setting.points arguments)
    (h : setting.setComponent arguments axis = .ok out) :
    setting.setComponent (Builtin.readAsFloats (.setComponent axis) arguments) axis
      = .ok (Builtin.readAsFloats (.setComponent axis) out) := by
  obtain ⟨p, x, floats, hp, hx, htriple, hstorage, hfloats, rfl⟩ := setComponent_eq_ok.mp h
  refine setComponent_eq_ok.mpr ⟨p, x.asFloats, floats, ?_,
    Builtin.getElem?_readAsFloats_of_mem (by simp [Builtin.floatPlaces]) hx, htriple, ?_, ?_,
    Builtin.readAsFloats_setIfInBounds (by simp [Builtin.floatPlaces])⟩
  · rwa [Builtin.getElem?_readAsFloats_of_not_mem (by simp [Builtin.floatPlaces])]
  · rwa [Value.isVarying, Value.asFloats_storage, ← Value.isVarying]
  refine forPlaces_mono (fun k hk zs next hnext => ?_) hfloats
  refine writeComponent_asFloats (fun hvarying => ?_) hnext
  -- a uniform triple takes no component that varies
  have hvarying' : p.storage = .varying := by
    obtain huniform | hvarying' := p.storage.uniform_or_varying
    · simp [Value.isUniform, Value.isVarying, huniform, hvarying] at hstorage
    · exact hvarying'
  rwa [(hover 1 x hx).size_of_varying hvarying, ← (hover 0 p hp).size_of_varying hvarying']

theorem fresnel_readAsFloats {out : Array Value} (hover : Value.AllOver setting.points arguments)
    (h : setting.fresnel arguments = .ok out) :
    setting.fresnel (Builtin.readAsFloats .fresnel arguments)
      = .ok (Builtin.readAsFloats .fresnel out) := by
  obtain ⟨incident, n, eta, r, t, kr, kt, floats, hincident, hn, heta, hr, ht, htriple, htriple',
    hkr, hkt, hloop, rfl⟩ := fresnel_eq_ok.mp h
  have hkept : ∀ {k : Nat} {value : Value}, k ≠ 2 → arguments[k]? = some value →
      (Builtin.readAsFloats .fresnel arguments)[k]? = some value := by
    intro k value hk hvalue
    rwa [Builtin.getElem?_readAsFloats_of_not_mem (by simp [Builtin.floatPlaces, hk])]
  refine fresnel_eq_ok.mpr ⟨incident, n, eta.asFloats, r, t, kr, kt, floats,
    hkept (by decide) hincident, hkept (by decide) hn,
    Builtin.getElem?_readAsFloats_of_mem (by decide) heta, hkept (by decide) hr,
    hkept (by decide) ht, htriple, htriple', hkr, hkt, ?_, ?_⟩
  · refine forPlaces_mono (fun k hk state next hnext => ?_) hloop
    refine writeCoefficients_asFloats (fun hvarying => ?_) hnext
    rwa [(hover 2 eta heta).size_of_varying hvarying]
  · rw [Builtin.readAsFloats_setIfInBounds (by decide),
      Builtin.readAsFloats_setIfInBounds (by decide)]

end Setting

namespace Builtin

variable {function : Builtin} {setting : Setting} {arguments : Array Value} {reply : Reply}

/-- **Reading.**  A builtin cannot tell a varying argument from the floats that it reads of it. -/
theorem run_readAsFloats (hover : Value.AllOver setting.points arguments)
    (h : function.run setting arguments = .ok reply) :
    function.run setting (function.readAsFloats arguments)
      = .ok (function.replyAsFloats reply) := by
  cases function with
  | refract =>
    obtain ⟨out, hout, rfl⟩ := map_eq_ok.mp h
    exact map_eq_ok.mpr ⟨out, Setting.refract_readAsFloats hover hout, rfl⟩
  | setComponent axis =>
    obtain ⟨out, hout, rfl⟩ := map_eq_ok.mp h
    exact map_eq_ok.mpr ⟨_, Setting.setComponent_readAsFloats hover hout, rfl⟩
  | fresnel =>
    obtain ⟨out, hout, rfl⟩ := map_eq_ok.mp h
    exact map_eq_ok.mpr ⟨_, Setting.fresnel_readAsFloats hover hout, rfl⟩
  | _ =>
    -- the others read triples and matrices only
    rw [readAsFloats_of_floatPlaces rfl, h]
    obtain ⟨out, -, rfl⟩ := map_eq_ok.mp h
    rfl

end Builtin

/-! ### What builtins check -/

namespace Builtin

variable {function : Builtin} {setting : Setting} {arguments : Array Value} {reply : Reply}
  {i : Nat}

/-- The places of the arguments that have to be triples. -/
def triplePlaces : Builtin → List Nat
  | .distance | .reflect | .refract | .fresnel => [0, 1]
  | .faceforward => [0, 1, 2]
  | .transform _ | .derivative _ => []
  | _ => [0]

/-- The places of the arguments that have to be uniform. -/
def uniformPlaces : Builtin → List Nat
  | .rotate => [1, 2, 3]
  | _ => []

/-- What a builtin insists on.  The last argument of a transform is a triple, and those before it
    are spaces and matrices. -/
structure Accepts (function : Builtin) (arguments : Array Value) : Prop where
  triples : ∀ n ∈ function.triplePlaces, ∀ value, arguments[n]? = some value →
    value.type.isTriple = true
  uniforms : ∀ n ∈ function.uniformPlaces, ∀ value, arguments[n]? = some value →
    value.storage = .uniform
  spaces : ∀ kind, function = .transform kind → ∃ leading p, arguments.toList = leading ++ [p] ∧
    p.type.isTriple = true ∧
    ∀ value ∈ leading, value.storage = .uniform ∧ (value.type = .string ∨ value.type = .matrix)

theorem Accepts.of_triples (huniforms : function.uniformPlaces = [])
    (hspaces : ∀ kind, function ≠ .transform kind)
    (h : ∀ n ∈ function.triplePlaces, ∀ value, arguments[n]? = some value →
      value.type.isTriple = true) : function.Accepts arguments :=
  ⟨h, by simp [huniforms], fun kind hkind => absurd hkind (hspaces kind)⟩

theorem accepts_of_transform {kind : TransformKind} {out : Value}
    (h : setting.transform arguments kind = .ok out) :
    Accepts (.transform kind) arguments := by
  unfold Setting.transform at h
  cases hback : arguments.back? with
  | none => simp [hback] at h
  | some p =>
    simp only [hback, pure_bind, bind_eq_ok, Setting.requireTriple_eq_ok] at h
    obtain ⟨_, htriple, matrix, hmatrix, -⟩ := h
    refine ⟨by simp [triplePlaces], by simp [uniformPlaces], fun _ _ =>
      ⟨arguments.pop.toList, p, ?_, htriple, fun value hvalue =>
        ⟨Setting.uniform_of_leadingMatrix hmatrix value hvalue,
          Setting.type_of_leadingMatrix hmatrix value hvalue⟩⟩⟩
    rw [Array.toList_pop]
    exact (List.dropLast_append_getLast? p (by rwa [Array.getLast?_toList])).symm

/-- **Types.**  What a pointwise builtin insists on holds of the arguments that it accepts. -/
theorem accepts_of_run (hpointwise : function.isPointwise = true)
    (h : function.run setting arguments = .ok reply) : function.Accepts arguments := by
  cases function with
  | area | calculatenormal | derivative => cases hpointwise
  | transform kind =>
    obtain ⟨out, hout, -⟩ := map_eq_ok.mp h
    exact accepts_of_transform hout
  | setComponent axis =>
    obtain ⟨out, hout, -⟩ := map_eq_ok.mp h
    obtain ⟨p, x, floats, hp, hx, htriple, -⟩ := Setting.setComponent_eq_ok.mp hout
    exact .of_triples rfl (by simp) (by simp [triplePlaces, hp, htriple])
  | fresnel =>
    obtain ⟨out, hout, -⟩ := map_eq_ok.mp h
    obtain ⟨incident, n, -, -, -, -, -, -, hincident, hn, -, -, -, htriple, htriple', -⟩ :=
      Setting.fresnel_eq_ok.mp hout
    exact .of_triples rfl (by simp) (by simp [triplePlaces, hincident, hn, htriple, htriple'])
  | component | length | normalize | depth =>
    obtain ⟨out, hout, -⟩ := map_eq_ok.mp h
    simp only [Setting.component, Setting.length, Setting.normalize, Setting.depth, bind_eq_ok,
      fetch_eq_ok, Setting.requireTriple_eq_ok] at hout
    obtain ⟨p, hp, _, htriple, -⟩ := hout
    exact .of_triples rfl (by simp) (by simp [triplePlaces, hp, htriple])
  | distance | reflect =>
    obtain ⟨out, hout, -⟩ := map_eq_ok.mp h
    simp only [Setting.distance, Setting.reflect, bind_eq_ok, fetch_eq_ok,
      Setting.requireTriple_eq_ok] at hout
    obtain ⟨p, hp, q, hq, _, htriple, _, htriple', -⟩ := hout
    exact .of_triples rfl (by simp) (by simp [triplePlaces, hp, hq, htriple, htriple'])
  | refract =>
    obtain ⟨out, hout, -⟩ := map_eq_ok.mp h
    simp only [Setting.refract, bind_eq_ok, fetch_eq_ok, Setting.requireTriple_eq_ok] at hout
    obtain ⟨p, hp, q, hq, eta, -, _, htriple, _, htriple', -⟩ := hout
    exact .of_triples rfl (by simp) (by simp [triplePlaces, hp, hq, htriple, htriple'])
  | faceforward =>
    obtain ⟨out, hout, -⟩ := map_eq_ok.mp h
    simp only [Setting.faceforward, bind_eq_ok, fetch_eq_ok, Setting.requireTriple_eq_ok] at hout
    obtain ⟨n, hn, incident, hincident, _, htriple, _, htriple', _, htriple'', -⟩ := hout
    refine .of_triples rfl (by simp) ?_
    -- the third argument may be missing, and the first then stands for it
    simp only [triplePlaces, List.forall_mem_cons, hn, hincident]
    refine ⟨by simp [htriple], by simp [htriple'], fun value hvalue => ?_, by simp⟩
    rwa [hvalue] at htriple''
  | rotate =>
    obtain ⟨out, hout, -⟩ := map_eq_ok.mp h
    simp only [Setting.rotate, bind_eq_ok, fetch_eq_ok, Setting.requireTriple_eq_ok,
      Setting.requireUniform_eq_ok] at hout
    obtain ⟨q, hq, angle, hangle, p0, hp0, p1, hp1, _, htriple, _, hangle', _, hp0', _, hp1', -⟩ :=
      hout
    exact ⟨by simp [triplePlaces, hq, htriple],
      by simp [uniformPlaces, hangle, hp0, hp1, hangle', hp0', hp1'], by simp⟩

/-! ### Two calls -/

/-- What a builtin reads of two lists of arguments is the same to a point. -/
theorem allAgreeAt_readAsFloats {points : Nat} {arguments' : Array Value}
    (hover : Value.AllOver points arguments) (hover' : Value.AllOver points arguments')
    (hagree : Value.AllAgreeAt i arguments arguments')
    (hfloat : ∀ n ∈ function.floatPlaces, ∀ value value', arguments[n]? = some value →
      arguments'[n]? = some value' → value.storage = .varying →
      value.type = .float ∨ value.floats[i]? = value'.floats[i]?) :
    Value.AllAgreeAt i (function.readAsFloats arguments) (function.readAsFloats arguments') := by
  refine ⟨by simp [readAsFloats, hagree.size_eq], fun n value value' hvalue hvalue' => ?_⟩
  rw [getElem?_readAsFloats, Option.map_eq_some_iff] at hvalue hvalue'
  obtain ⟨held, hheld, rfl⟩ := hvalue
  obtain ⟨held', hheld', rfl⟩ := hvalue'
  have hheldAgree := hagree.agree n held held' hheld hheld'
  by_cases hn : n ∈ function.floatPlaces
  · rw [if_pos hn, if_pos hn]
    refine hheldAgree.asFloats (fun hvarying => ?_) fun hvarying => ?_
    · have hvarying' : held'.storage = .varying := hheldAgree.storage_eq ▸ hvarying
      rw [(hover n held hheld).size_of_varying hvarying,
        (hover' n held' hheld').size_of_varying hvarying']
    · rcases hfloat n hn held held' hheld hheld' hvarying with htype | hsame
      · -- the float of a point's own number is all that its element has
        have hone := Value.components_of_float htype
        simpa [hone] using hheldAgree.varying hvarying 0 (by simp [hone])
      · exact hsame
  · rwa [if_neg hn, if_neg hn]

theorem type_of_readAsFloats {n : Nat} {value : Value} (hn : n ∈ function.floatPlaces)
    (h : (function.readAsFloats arguments)[n]? = some value) (hvarying : value.storage = .varying) :
    value.type = .float := by
  rw [getElem?_readAsFloats, Option.map_eq_some_iff] at h
  obtain ⟨held, -, rfl⟩ := h
  rw [if_pos hn] at hvarying ⊢
  exact Value.type_asFloats (Value.asFloats_storage ▸ hvarying)

theorem not_mem_outputs_of_floatPlaces {n : Nat} (hn : n ∈ function.floatPlaces) :
    n ∉ function.outputs := by
  cases function <;> simp_all [floatPlaces, outputs]

/-- What the replies say of the arguments as they are read, they say of the arguments. -/
theorem agreesAt_of_replyAsFloats {arguments' : Array Value} {reply' : Reply}
    (hagree : Value.AllAgreeAt i arguments arguments')
    (h : function.run setting arguments = .ok reply)
    (h' : function.run setting arguments' = .ok reply')
    (hread : (function.replyAsFloats reply).AgreesAt i (function.replyAsFloats reply')) :
    reply.AgreesAt i reply' := by
  cases reply with
  | result value =>
    cases reply' with
    | result value' => exact hread
    | arguments values' => cases hread
  | arguments values =>
    cases reply' with
    | result value' => cases hread
    | arguments values' =>
      cases hread with
      | arguments hread =>
        have hsize : values.size = values'.size := by simpa [readAsFloats] using hread.size_eq
        refine .arguments ⟨hsize, fun n value value' hv hv' => ?_⟩
        by_cases hn : n ∈ function.floatPlaces
        · -- what is read as floats is not written
          have hkept := not_mem_outputs_of_floatPlaces hn
          rw [kept_of_run h hkept] at hv
          rw [kept_of_run h' hkept] at hv'
          exact hagree.agree n value value' hv hv'
        · refine hread.agree n value value' ?_ ?_
          · rwa [getElem?_readAsFloats_of_not_mem hn]
          · rwa [getElem?_readAsFloats_of_not_mem hn]

/-- **Locality.**  What a pointwise builtin replies at a point is the same for arguments that are
    the same there.  Of a varying argument that is read as floats but has another type, the point
    reads the float with its own number, and that has to be the same as well. -/
theorem run_local {arguments' : Array Value} {reply' : Reply}
    (hpointwise : function.isPointwise = true) (hi : i < setting.points)
    (hover : Value.AllOver setting.points arguments)
    (hover' : Value.AllOver setting.points arguments')
    (hagree : Value.AllAgreeAt i arguments arguments')
    (hfloat : ∀ n ∈ function.floatPlaces, ∀ value value', arguments[n]? = some value →
      arguments'[n]? = some value' → value.storage = .varying →
      value.type = .float ∨ value.floats[i]? = value'.floats[i]?)
    (h : function.run setting arguments = .ok reply)
    (h' : function.run setting arguments' = .ok reply') :
    function.Accepts arguments ∧ reply.AgreesAt i reply' := by
  refine ⟨accepts_of_run hpointwise h, ?_⟩
  apply agreesAt_of_replyAsFloats hagree h h'
  apply Reply.agreesAt_of_cut_eq
  -- both calls are one and the same call at a single point
  have hcut := run_cut hpointwise hi (allOver_readAsFloats hover)
    (fun n hn value => type_of_readAsFloats hn) (run_readAsFloats hover h)
  have hcut' := run_cut hpointwise hi (allOver_readAsFloats hover')
    (fun n hn value => type_of_readAsFloats hn) (run_readAsFloats hover' h')
  rw [(allAgreeAt_readAsFloats hover hover' hagree hfloat).map_cut_eq, hcut'] at hcut
  exact (Except.ok.inj hcut).symm

end Builtin

/-! ### An index of refraction of another type -/

namespace GrazingRays

def setting : Setting := ⟨.still, 2, 1, none⟩

def incident : Value := ⟨.vector, .varying, 2, #[1, 0, 0, 1, 0, 0], none⟩

def normal : Value := ⟨.normal, .varying, 2, #[0, 0, 1, 0, 0, 1], none⟩

/-- Two rays along a surface, and vectors for their indices of refraction. -/
def arguments (eta : Buffer) : Array Value := #[incident, normal, ⟨.vector, .varying, 2, eta, none⟩]

variable {eta eta' : Buffer}

theorem allOver_arguments (h : eta.size = 6) : Value.AllOver 2 (arguments eta) := by
  intro n value hvalue
  match n, hvalue with
  | 0, hvalue => exact Option.some.inj hvalue ▸ ⟨.inr rfl, rfl⟩
  | 1, hvalue => exact Option.some.inj hvalue ▸ ⟨.inr rfl, rfl⟩
  | 2, hvalue => exact Option.some.inj hvalue ▸ ⟨.inr rfl, h⟩

/-- The second point sees three floats of the indices. -/
theorem allAgreeAt_arguments (h : ∀ c < 3, eta[3 + c]? = eta'[3 + c]?) :
    Value.AllAgreeAt 1 (arguments eta) (arguments eta') := by
  refine ⟨rfl, fun n value value' hvalue hvalue' => ?_⟩
  match n, hvalue, hvalue' with
  | 0, hvalue, hvalue' =>
    obtain rfl := Option.some.inj (hvalue.symm.trans hvalue')
    exact Value.agreesAt_of_cut_eq rfl
  | 1, hvalue, hvalue' =>
    obtain rfl := Option.some.inj (hvalue.symm.trans hvalue')
    exact Value.agreesAt_of_cut_eq rfl
  | 2, hvalue, hvalue' =>
    obtain rfl := Option.some.inj hvalue
    obtain rfl := Option.some.inj hvalue'
    exact ⟨rfl, rfl, rfl, (by cases ·), fun _ => h⟩

theorem exists_run (eta floats : Buffer)
    (h : (setting.refract (arguments eta)).toOption.map
      (fun out => (out.type, out.storage, out.floats)) = some (.vector, .varying, floats)) :
    ∃ out, Builtin.refract.run setting (arguments eta) = .ok (.result out) ∧ out.type = .vector ∧
      out.storage = .varying ∧ out.floats = floats := by
  rcases hout : setting.refract (arguments eta) with fault | out
  · rw [hout] at h
    cases h
  · rw [hout] at h
    obtain ⟨htype, hstorage, hfloats⟩ : out.type = .vector ∧ out.storage = .varying ∧
        out.floats = floats := by simpa [Except.toOption] using h
    exact ⟨out, map_eq_ok.mpr ⟨out, hout, rfl⟩, htype, hstorage, hfloats⟩

end GrazingRays

section

open GrazingRays

/-- The second point reads the second float, which is the same in both calls. -/
theorem Builtin.run_local_grazingRays :
    (Value.AllAgreeAt 1 (arguments #[1, 1, 0, 0, 0, 0]) (arguments #[0, 1, 2, 0, 0, 0]) ∧
      (#[1, 1, 0, 0, 0, 0] : Buffer)[1]? = (#[0, 1, 2, 0, 0, 0] : Buffer)[1]?) ∧
    ∃ out out', Builtin.refract.run setting (arguments #[1, 1, 0, 0, 0, 0]) = .ok (.result out) ∧
      Builtin.refract.run setting (arguments #[0, 1, 2, 0, 0, 0]) = .ok (.result out') ∧
      Builtin.refract.Accepts (arguments #[1, 1, 0, 0, 0, 0]) ∧
      (Reply.result out).AgreesAt 1 (.result out') := by
  have hagree : Value.AllAgreeAt 1 (arguments #[1, 1, 0, 0, 0, 0])
      (arguments #[0, 1, 2, 0, 0, 0]) := allAgreeAt_arguments (by decide +kernel)
  obtain ⟨out, hout, -⟩ := exists_run #[1, 1, 0, 0, 0, 0] #[0, 0, 0, 0, 0, 0] (by decide +kernel)
  obtain ⟨out', hout', -⟩ := exists_run #[0, 1, 2, 0, 0, 0] #[0, 0, -1, 0, 0, 0] (by decide +kernel)
  have hover : ∀ {eta : Buffer}, eta.size = 6 → Value.AllOver setting.points (arguments eta) :=
    allOver_arguments
  refine ⟨⟨hagree, rfl⟩, out, out', hout, hout', ?_⟩
  refine Builtin.run_local rfl (by decide) (hover rfl) (hover rfl) hagree ?_ hout hout'
  intro n hn value value' hvalue hvalue' _
  obtain rfl := List.mem_singleton.mp hn
  obtain rfl := Option.some.inj hvalue
  obtain rfl := Option.some.inj hvalue'
  exact .inr rfl

/-- Vectors for indices of refraction are not rejected, and the second point reads a float that
    belongs to the first. -/
theorem Builtin.refract_reads_neighbour :
    Value.AllOver setting.points (arguments #[0, 1, 0, 0, 0, 0]) ∧
    Value.AllOver setting.points (arguments #[0, 0, 0, 0, 0, 0]) ∧
    Value.AllAgreeAt 1 (arguments #[0, 1, 0, 0, 0, 0]) (arguments #[0, 0, 0, 0, 0, 0]) ∧
    ∃ out out', Builtin.refract.run setting (arguments #[0, 1, 0, 0, 0, 0]) = .ok (.result out) ∧
      Builtin.refract.run setting (arguments #[0, 0, 0, 0, 0, 0]) = .ok (.result out') ∧
      ¬ (Reply.result out).AgreesAt 1 (.result out') := by
  refine ⟨allOver_arguments rfl, allOver_arguments rfl,
    allAgreeAt_arguments (by decide +kernel), ?_⟩
  obtain ⟨out, hout, htype, hstorage, hfloats⟩ := exists_run #[0, 1, 0, 0, 0, 0]
    #[0, 0, -1, 0, 0, 0] (by decide +kernel)
  obtain ⟨out', hout', -, -, hfloats'⟩ := exists_run #[0, 0, 0, 0, 0, 0] #[0, 0, -1, 0, 0, -1]
    (by decide +kernel)
  refine ⟨out, out', hout, hout', ?_⟩
  intro hagree
  cases hagree with
  | result hagree =>
    have hthree : out.components = 3 := by rw [Value.components, htype]; rfl
    have hlast := hagree.varying hstorage 2 (by rw [hthree]; decide)
    rw [hthree, hfloats, hfloats'] at hlast
    revert hlast
    decide +kernel

end

end Shading
