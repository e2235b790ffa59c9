import Shading.Builtin.Call
import Shading.Proofs.Kernels

namespace Shading

/-!
# How builtins come by their replies

Most builtins tabulate floats or triples over the points.  The type of such a result follows from the
types of the arguments, and it is varying exactly if one of them is.  The other builtins take
differences along the grid, or write some of their arguments.

* `Setting.floats_eq_ok`, `Setting.triples_eq_ok` — what is tabulated;
* `Builtin.resultType` — the type of a result;
* `Builtin.Replied` — the few ways to come by a reply;
* `Builtin.replied_of_run` — there are no others.
-/

/-! ### Storages -/

/-- A result is uniform exactly if all that it depends on is. -/
theorem widestOf_eq_uniform {values : List Value} :
    widestOf values = .uniform ↔ ∀ value ∈ values, value.storage = .uniform := by
  -- the fold may start from any storage
  have hfold : ∀ (values : List Value) (storage : Storage),
      values.foldl (fun storage value => storage.widest value.storage) storage = .uniform ↔
        storage = .uniform ∧ ∀ value ∈ values, value.storage = .uniform := by
    intro values
    induction values with
    | nil => simp
    | cons first rest ih =>
      intro storage
      rw [List.foldl_cons, ih, List.forall_mem_cons, ← and_assoc]
      refine and_congr_left fun _ => ?_
      cases storage <;> cases first.storage <;> simp [Storage.widest]
  rw [widestOf, hfold]
  simp

/-- A result that depends on a varying value is varying. -/
theorem widestOf_eq_varying {values : List Value} {value : Value} (hmem : value ∈ values)
    (h : value.storage = .varying) : widestOf values = .varying := by
  obtain huniform | hvarying := (widestOf values).uniform_or_varying
  · rw [widestOf_eq_uniform.mp huniform value hmem] at h
    cases h
  · exact hvarying

/-- Uniform values do not matter to a storage. -/
theorem widestOf_append_cons {before after : List Value} {value : Value}
    (hbefore : ∀ other ∈ before, other.storage = .uniform)
    (hafter : ∀ other ∈ after, other.storage = .uniform) :
    widestOf (before ++ value :: after) = value.storage := by
  obtain huniform | hvarying := value.storage.uniform_or_varying
  · rw [huniform, widestOf_eq_uniform]
    rintro other hother
    rcases List.mem_append.mp hother with hother | hother
    · exact hbefore other hother
    · rcases List.mem_cons.mp hother with rfl | hother
      · exact huniform
      · exact hafter other hother
  · rw [hvarying]
    exact widestOf_eq_varying (by simp) hvarying

theorem widestOf_singleton (value : Value) : widestOf [value] = value.storage :=
  @widestOf_append_cons [] [] value (by simp) (by simp)

/-! ### Tabulated values -/

namespace Setting

variable {setting : Setting} {storage : Storage} {arguments : Array Value} {value out : Value}

theorem floats_eq_ok {f : Nat → Except Fault Float32} :
    setting.floats storage f = .ok out ↔
      4 * (1 * storage.size setting.points) < 0x8000000000000000 ∧
      ∃ xs, tabulate (storage.size setting.points) f = .ok xs ∧
        out = ⟨.float, storage, storage.size setting.points, xs, none⟩ := by
  unfold floats
  simp only [bind_eq_ok, Value.allocate_eq_ok, pure_eq_ok]
  constructor
  · rintro ⟨_, ⟨hroom, rfl⟩, xs, hxs, rfl⟩
    exact ⟨hroom, xs, hxs, rfl⟩
  · rintro ⟨hroom, xs, hxs, rfl⟩
    exact ⟨_, ⟨hroom, rfl⟩, xs, hxs, rfl⟩

theorem triples_eq_ok {type : ElementType} {f : Nat → Except Fault Vec3} :
    setting.triples type storage f = .ok out ↔
      4 * (type.components * storage.size setting.points) < 0x8000000000000000 ∧
      ∃ xs, tabulate (storage.size setting.points) f = .ok xs ∧
        out = ⟨type, storage, storage.size setting.points,
          xs.flatMap fun v => #[v.x, v.y, v.z], none⟩ := by
  unfold triples
  simp only [bind_eq_ok, Value.allocate_eq_ok, pure_eq_ok]
  constructor
  · rintro ⟨_, ⟨hroom, rfl⟩, xs, hxs, rfl⟩
    exact ⟨hroom, xs, hxs, rfl⟩
  · rintro ⟨hroom, xs, hxs, rfl⟩
    exact ⟨_, ⟨hroom, rfl⟩, xs, hxs, rfl⟩

theorem triples_mono {type : ElementType} {f g : Nat → Except Fault Vec3}
    (hfg : ∀ i < storage.size setting.points, ∀ v, f i = .ok v → g i = .ok v)
    (h : setting.triples type storage f = .ok out) : setting.triples type storage g = .ok out := by
  obtain ⟨hroom, xs, hxs, rfl⟩ := triples_eq_ok.mp h
  refine triples_eq_ok.mpr ⟨hroom, xs, forPlaces_mono (fun i hi ys next hnext => ?_) hxs, rfl⟩
  obtain ⟨v, hv, hpush⟩ := bind_eq_ok.mp hnext
  exact bind_eq_ok.mpr ⟨v, hfg i hi v hv, hpush⟩

theorem size_flatMap_triples {triples : Array Vec3} :
    (triples.flatMap fun v => #[v.x, v.y, v.z]).size = 3 * triples.size := by
  obtain ⟨list⟩ := triples
  rw [List.flatMap_toArray]
  induction list with
  | nil => rfl
  | cons v list ih =>
    simp only [List.size_toArray, List.flatMap_cons, List.length_append, List.length_cons] at ih ⊢
    rw [ih]
    simp
    omega

/-! ### Differences -/

/-- The change of a value is zeros of its type, storage and size with other floats in their place. -/
theorem change_of_difference {direction : Direction}
    (h : setting.difference direction value = .ok out) :
    (value.type = .float ∨ value.type.isTriple = true) ∧
      ∃ floats : Buffer, floats.size = value.type.components * value.size ∧
        out = { Value.zeros value.type value.storage value.size with floats := floats } := by
  unfold difference at h
  dsimp only at h
  split at h
  next => simp at h
  next htype =>
    have htype : value.type = .float ∨ value.type.isTriple = true := by tauto
    refine ⟨htype, ?_⟩
    split at h
    next =>
      obtain rfl := pure_eq_ok.mp h
      exact ⟨_, Array.size_replicate, rfl⟩
    next =>
      split at h
      next => simp at h
      next =>
        -- one float for each point, or three of them
        split at h
        next hfloat =>
          obtain ⟨floats, hfloats, h⟩ := bind_eq_ok.mp h
          refine ⟨floats, ?_, (pure_eq_ok.mp h).symm⟩
          have hone : value.type.components = 1 := Value.components_of_float hfloat
          rw [(tabulate_eq_ok.mp hfloats).1, hone, Nat.one_mul]
        next hfloat =>
          obtain ⟨triples, htriples, h⟩ := bind_eq_ok.mp h
          refine ⟨_, size_flatMap_triples.trans ?_, (pure_eq_ok.mp h).symm⟩
          have hthree : value.type.components = 3 :=
            Value.components_of_isTriple (htype.resolve_left hfloat)
          rw [(tabulate_eq_ok.mp htriples).1, hthree]

/-- There is an area for each element of a triple. -/
theorem areas_of_area (h : setting.area arguments = .ok out) :
    ∃ p, arguments[0]? = some p ∧ p.type.isTriple = true ∧
      ∃ floats : Buffer, floats.size = p.size ∧
        out = { Value.zeros .float p.storage p.size with floats := floats } := by
  unfold area at h
  simp only [bind_eq_ok, fetch_eq_ok, requireTriple_eq_ok] at h
  obtain ⟨p, hp, _, htriple, h⟩ := h
  refine ⟨p, hp, htriple, ?_⟩
  split at h
  next =>
    obtain rfl := pure_eq_ok.mp h
    exact ⟨_, Array.size_replicate.trans (Nat.one_mul _), rfl⟩
  next =>
    obtain ⟨floats, hfloats, h⟩ := bind_eq_ok.mp h
    exact ⟨floats, (tabulate_eq_ok.mp hfloats).1, (pure_eq_ok.mp h).symm⟩

/-! ### Uniform arguments -/

theorem requireUniform_eq_ok {user : String} {u : Unit} :
    requireUniform user value = .ok u ↔ value.storage = .uniform := by
  unfold requireUniform Value.isUniform
  cases value.storage <;> simp

theorem uniform_of_leadingMatrix {scene : Scene} {leading : List Value} {matrix : Mat4}
    (h : leadingMatrix scene leading = .ok matrix) :
    ∀ value ∈ leading, value.storage = .uniform := by
  unfold leadingMatrix at h
  obtain ⟨_, hall, -⟩ := bind_eq_ok.mp h
  exact fun value hvalue => requireUniform_eq_ok.mp (forM_eq_ok.mp hall value hvalue)

end Setting

/-! ### Replies -/

/-- An array that has no room for more than a list is that list. -/
theorem toList_eq_of_zipIdx {α : Type} {xs : Array α} (ys : List α) (hsize : xs.size ≤ ys.length)
    (h : ∀ y ∈ ys.zipIdx, xs[y.2]? = some y.1) : xs.toList = ys := by
  refine List.ext_getElem? fun n => ?_
  rw [Array.getElem?_toList]
  cases hy : ys[n]? with
  | some y => exact h (y, n) (List.mem_zipIdx_iff_getElem?.mpr hy)
  | none =>
    rw [List.getElem?_eq_none_iff] at hy
    exact Array.getElem?_eq_none_iff.mpr (hsize.trans hy)

namespace Builtin

/-- The type of the result, from the types of the arguments; a function that writes its arguments has
    none. -/
def resultType (function : Builtin) (types : List ElementType) : Option ElementType :=
  match function with
  | .component _ | .length | .distance | .area | .depth => some .float
  | .reflect | .refract => some .vector
  | .calculatenormal => some .normal
  | .normalize | .faceforward | .rotate | .derivative _ => types.head?
  | .transform _ => types.getLast?
  | .setComponent _ | .fresnel => none

/-- How a builtin comes by its reply.  What it tabulates depends on all the arguments, if there are no
    more of them than it takes. -/
inductive Replied (setting : Setting) (arguments : Array Value) (function : Builtin) : Reply → Prop
  | floats {values : List Value} {f : Nat → Except Fault Float32} {out : Value}
      (hvalues : arguments.size ≤ function.arity.2 → arguments.toList = values)
      (htype : function.resultType (values.map Value.type) = some .float)
      (hout : setting.floats (widestOf values) f = .ok out) :
      Replied setting arguments function (.result out)
  | triples {values : List Value} {type : ElementType} {f : Nat → Except Fault Vec3} {out : Value}
      (hvalues : arguments.size ≤ function.arity.2 → arguments.toList = values)
      (htype : function.resultType (values.map Value.type) = some type)
      (hthree : type.components = 3)
      (hout : setting.triples type (widestOf values) f = .ok out) :
      Replied setting arguments function (.result out)
  | derivative {direction : Direction} {value out : Value}
      (hfunction : function = .derivative direction) (hvalue : arguments[0]? = some value)
      (hout : setting.difference direction value = .ok out) :
      Replied setting arguments function (.result out)
  | area {out : Value} (hfunction : function = .area) (hout : setting.area arguments = .ok out) :
      Replied setting arguments function (.result out)
  | setComponent {axis : Axis} {values : Array Value} (hfunction : function = .setComponent axis)
      (hvalues : setting.setComponent arguments axis = .ok values) :
      Replied setting arguments function (.arguments values)
  | fresnel {values : Array Value} (hfunction : function = .fresnel)
      (hvalues : setting.fresnel arguments = .ok values) :
      Replied setting arguments function (.arguments values)

variable {function : Builtin} {setting : Setting} {arguments : Array Value} {reply : Reply}
  {out : Value}

theorem replied_of_faceforward (h : setting.faceforward arguments = .ok out) :
    Replied setting arguments .faceforward (.result out) := by
  simp only [Setting.faceforward, bind_eq_ok, fetch_eq_ok, Setting.requireTriple_eq_ok] at h
  obtain ⟨n, hn, incident, hincident, _, htriple, _, -, _, -, hout⟩ := h
  have hthree : n.type.components = 3 := Value.components_of_isTriple htriple
  cases hreference : arguments[2]? with
  | some reference =>
    rw [hreference] at hout
    have hvalues : arguments.size ≤ 3 → arguments.toList = [n, incident, reference] :=
      fun hcount => toList_eq_of_zipIdx _ hcount (by simp [hn, hincident, hreference])
    exact .triples hvalues rfl hthree hout
  | none =>
    -- without a reference the first argument stands in for it
    rw [hreference] at hout
    have hagain : widestOf [n, incident, n] = widestOf [n, incident] := by
      simp only [widestOf, List.foldl_cons, List.foldl_nil]
      cases n.storage <;> cases incident.storage <;> rfl
    have hvalues : arguments.toList = [n, incident] :=
      toList_eq_of_zipIdx _ (Array.getElem?_eq_none_iff.mp hreference) (by simp [hn, hincident])
    exact .triples (fun _ => hvalues) rfl hthree (hagain ▸ hout)

theorem replied_of_rotate (h : setting.rotate arguments = .ok out) :
    Replied setting arguments .rotate (.result out) := by
  simp only [Setting.rotate, bind_eq_ok, fetch_eq_ok, Setting.requireTriple_eq_ok,
    Setting.requireUniform_eq_ok] at h
  obtain ⟨q, hq, angle, hangle, p0, hp0, p1, hp1, _, htriple, _, hangle', _, hp0', _, hp1', _, -, _, -,
    _, -, hout⟩ := h
  -- all but the first argument are uniform
  have hwidest : widestOf [q, angle, p0, p1] = q.storage :=
    @widestOf_append_cons [] _ q (by simp) (by simp [hangle', hp0', hp1'])
  exact .triples (fun hcount => toList_eq_of_zipIdx [q, angle, p0, p1] hcount
    (by simp [hq, hangle, hp0, hp1])) rfl (Value.components_of_isTriple htriple) (hwidest ▸ hout)

theorem replied_of_transform {kind : TransformKind} (h : setting.transform arguments kind = .ok out) :
    Replied setting arguments (.transform kind) (.result out) := by
  unfold Setting.transform at h
  split at h
  next p hback =>
    simp only [pure_bind, bind_eq_ok, Setting.requireTriple_eq_ok] at h
    obtain ⟨_, htriple, matrix, hmatrix, hout⟩ := h
    have hvalues : arguments.toList = arguments.pop.toList ++ [p] := by
      rw [Array.toList_pop]
      exact (List.dropLast_append_getLast? p (by rwa [Array.getLast?_toList])).symm
    have hwidest : widestOf (arguments.pop.toList ++ [p]) = p.storage :=
      widestOf_append_cons (Setting.uniform_of_leadingMatrix hmatrix) (by simp)
    exact .triples (fun _ => hvalues) (by simp [resultType]) (Value.components_of_isTriple htriple)
      (hwidest ▸ hout)
  next => simp at h

/-- **Replies.**  A builtin that replies at all comes by its reply in one of these ways. -/
theorem replied_of_run (h : function.run setting arguments = .ok reply) :
    Replied setting arguments function reply := by
  cases function <;> obtain ⟨out, hout, rfl⟩ := map_eq_ok.mp h
  case setComponent axis => exact .setComponent rfl hout
  case fresnel => exact .fresnel rfl hout
  case area => exact .area rfl hout
  case derivative direction =>
    obtain ⟨value, hvalue, hout⟩ := bind_eq_ok.mp hout
    exact .derivative rfl (fetch_eq_ok.mp hvalue) hout
  case faceforward => exact replied_of_faceforward hout
  case rotate => exact replied_of_rotate hout
  case transform kind => exact replied_of_transform hout
  -- the others tabulate, and what they tabulate depends on what they fetched
  case component | length | depth =>
    obtain ⟨p, hp, hout⟩ := bind_eq_ok.mp hout
    obtain ⟨_, -, hout⟩ := bind_eq_ok.mp hout
    rw [← widestOf_singleton] at hout
    have hp := fetch_eq_ok.mp hp
    exact .floats (fun hcount => toList_eq_of_zipIdx [p] hcount (by simp [hp])) rfl hout
  case distance =>
    simp only [Setting.distance, bind_eq_ok, fetch_eq_ok] at hout
    obtain ⟨p, hp, q, hq, _, -, _, -, hout⟩ := hout
    exact .floats (fun hcount => toList_eq_of_zipIdx [p, q] hcount (by simp [hp, hq])) rfl hout
  case normalize =>
    simp only [Setting.normalize, bind_eq_ok, fetch_eq_ok, Setting.requireTriple_eq_ok] at hout
    obtain ⟨n, hn, _, htriple, hout⟩ := hout
    rw [← widestOf_singleton] at hout
    exact .triples (fun hcount => toList_eq_of_zipIdx [n] hcount (by simp [hn])) rfl
      (Value.components_of_isTriple htriple) hout
  case calculatenormal =>
    simp only [Setting.calculatenormal, bind_eq_ok, fetch_eq_ok] at hout
    obtain ⟨p, hp, _, -, _, -, _, -, hout⟩ := hout
    rw [← widestOf_singleton] at hout
    exact .triples (fun hcount => toList_eq_of_zipIdx [p] hcount (by simp [hp])) rfl rfl hout
  case reflect =>
    simp only [Setting.reflect, bind_eq_ok, fetch_eq_ok] at hout
    obtain ⟨incident, hincident, n, hn, _, -, _, -, hout⟩ := hout
    exact .triples
      (fun hcount => toList_eq_of_zipIdx [incident, n] hcount (by simp [hincident, hn])) rfl rfl hout
  case refract =>
    simp only [Setting.refract, bind_eq_ok, fetch_eq_ok] at hout
    obtain ⟨incident, hincident, n, hn, eta, heta, _, -, _, -, hout⟩ := hout
    exact .triples (fun hcount => toList_eq_of_zipIdx [incident, n, eta] hcount
      (by simp [hincident, hn, heta])) rfl rfl hout

end Builtin

end Shading
