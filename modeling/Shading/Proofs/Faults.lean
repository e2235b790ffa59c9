import Shading.Builtin.Call
import Shading.Proofs.Loops

namespace Shading

/-!
# Which faults a computation can end in

Some faults say that code cannot be read, others that the machine has checked a command and refuses
it.  What cannot happen is told by the faults that a computation may end in.

* `Fault.isUnreadable`, `Fault.isCheck` — the two kinds of faults;
* `Fault.IsAssertion` — the machine says itself what is wrong, as `Fault.isAssertion_of_isCheck`;
* `FaultsOnly` — computations that end in no faults but the allowed ones;
* `Builtin.run_onValues` — builtins never complain about code.
-/

/-! ### Kinds of faults -/

namespace Fault

/-- Code that cannot be read: a word that is no instruction or no address, or an unknown function or
    type. -/
def isUnreadable : Fault → Bool
  | .malformedCode _ _ | .malformedOperand _ _ | .unknownFunction _ | .unknownType _ _ => true
  | _ => false

/-- The machine refuses a command on registers, a mask operation or an instruction without an
    operation. -/
def isCheck : Fault → Bool
  | .noText _ | .notWritable _ | .invertBase | .clearBase | .noBase | .noOperation _
  | .operandShape _ _ _ _ _ | .matrixRequired _ _ _ | .cannotProduce _ _ | .varyingResult _
  | .resultType _ _ _ => true
  | _ => false

/-- The machine says what is wrong: the text of the fault begins with `Error:`. -/
def IsAssertion (fault : Fault) : Prop :=
  ∃ text, fault.message = some text ∧ "Error: ".toList <+: text.toList

theorem prefix_append {start first : String} (rest : String) (h : start.toList <+: first.toList) :
    start.toList <+: (first ++ rest).toList := by
  rw [String.toList_append]
  exact h.trans (List.prefix_append _ _)

theorem isAssertion_of_isCheck {fault : Fault} (h : fault.isCheck = true) : fault.IsAssertion := by
  cases fault with
  | noText | notWritable | noOperation | operandShape | matrixRequired | cannotProduce
  | varyingResult | resultType =>
    refine ⟨_, rfl, ?_⟩
    -- down to the text before the first thing that is named
    repeat first | decide | apply prefix_append
  | invertBase | clearBase | noBase => exact ⟨_, rfl, by decide⟩
  | _ => cases h

theorem isUnreadable_of_isCheck {fault : Fault} (h : fault.isCheck = true) :
    fault.isUnreadable = false := by
  cases fault <;> first | rfl | cases h

end Fault

/-! ### Computations -/

section FaultsOnly

variable {α β σ : Type} {allowed : Fault → Prop} {x : Except Fault α} {f : α → Except Fault β}

/-- The computation ends in no fault but those that are allowed. -/
def FaultsOnly (allowed : Fault → Prop) (x : Except Fault α) : Prop :=
  ∀ fault, x = .error fault → allowed fault

theorem FaultsOnly.of_ok (h : ∃ a, x = .ok a) : FaultsOnly allowed x := by
  obtain ⟨a, rfl⟩ := h
  intro fault hfault
  cases hfault

/-- Where no fault is possible there is a result. -/
theorem FaultsOnly.exists_ok (h : FaultsOnly (fun _ => False) x) : ∃ a, x = .ok a := by
  cases x with
  | error fault => exact (h fault rfl).elim
  | ok a => exact ⟨a, rfl⟩

theorem FaultsOnly.mono {allowed' : Fault → Prop} (h : FaultsOnly allowed x)
    (hall : ∀ fault, allowed fault → allowed' fault) : FaultsOnly allowed' x :=
  fun fault hfault => hall fault (h fault hfault)

@[simp] theorem faultsOnly_ok {a : α} : FaultsOnly allowed (.ok a) := .of_ok ⟨a, rfl⟩

@[simp] theorem faultsOnly_pure {a : α} : FaultsOnly allowed (pure a) := .of_ok ⟨a, rfl⟩

@[simp] theorem faultsOnly_error {fault : Fault} :
    FaultsOnly allowed (.error fault : Except Fault α) ↔ allowed fault := by
  simp [FaultsOnly]

@[simp] theorem faultsOnly_throw {fault : Fault} :
    FaultsOnly allowed (throw fault : Except Fault α) ↔ allowed fault :=
  faultsOnly_error

theorem throw_eq {fault : Fault} : (throw fault : Except Fault α) = .error fault := rfl

theorem ok_bind {a : α} : (.ok a : Except Fault α) >>= f = f a := rfl

theorem error_bind {fault : Fault} : (.error fault : Except Fault α) >>= f = .error fault := rfl

/-- A sequence of two computations ends in the faults of either. -/
@[simp] theorem faultsOnly_bind : FaultsOnly allowed (x >>= f) ↔
    FaultsOnly allowed x ∧ ∀ a, x = .ok a → FaultsOnly allowed (f a) := by
  cases x with
  | error fault => simp [FaultsOnly, bind, Except.bind]
  | ok a => simp [FaultsOnly, bind, Except.bind]

@[simp] theorem faultsOnly_map {g : α → β} :
    FaultsOnly allowed (g <$> x) ↔ FaultsOnly allowed x := by
  cases x <;> simp [FaultsOnly, Functor.map, Except.map]

@[simp] theorem faultsOnly_discard : FaultsOnly allowed (discard x) ↔ FaultsOnly allowed x :=
  faultsOnly_map

theorem faultsOnly_fetch {xs : Array α} {i : Nat} (h : allowed .outOfRange ∨ i < xs.size) :
    FaultsOnly allowed (fetch xs i) := by
  unfold fetch
  split
  · exact faultsOnly_ok
  next hlt => exact faultsOnly_error.mpr (h.resolve_right hlt)

theorem faultsOnly_store {xs : Array α} {i : Nat} {y : α} (h : allowed .outOfRange ∨ i < xs.size) :
    FaultsOnly allowed (store xs i y) := by
  unfold store
  split
  · exact faultsOnly_ok
  next hlt => exact faultsOnly_error.mpr (h.resolve_right hlt)

/-- A loop ends in the faults of its steps, each taken in a state with the property that the steps
    before it passed on. -/
theorem faultsOnly_forPlaces {step : Nat → σ → Except Fault σ} {n : Nat} {first : σ}
    (P : Nat → σ → Prop) (hfirst : P 0 first)
    (hstep : ∀ i < n, ∀ state, P i state → FaultsOnly allowed (step i state) ∧
      ∀ next, step i state = .ok next → P (i + 1) next) :
    FaultsOnly allowed (forPlaces n first step) := by
  suffices general : ∀ count i state, i + count = n → P i state →
      FaultsOnly allowed (forPlacesFrom step count i state) from
    general n 0 first (by omega) hfirst
  intro count
  induction count with
  | zero => exact fun i state hi hstate => faultsOnly_ok
  | succ count ih =>
    intro i state hi hstate
    obtain ⟨hfaults, hnext⟩ := hstep i (by omega) state hstate
    rw [forPlacesFrom]
    cases hstate' : step i state with
    | error fault => exact faultsOnly_error.mpr (hfaults fault hstate')
    | ok next => exact ih (i + 1) next (by omega) (hnext next hstate')

theorem faultsOnly_tabulate {n : Nat} {f : Nat → Except Fault α}
    (h : ∀ i < n, FaultsOnly allowed (f i)) : FaultsOnly allowed (tabulate n f) :=
  faultsOnly_forPlaces (fun _ _ => True) trivial fun i hi _ _ => ⟨by simp [h i hi], by simp⟩

theorem faultsOnly_fill {n : Nat} {f : Nat → Except Fault α} {xs : Array α} (hn : n ≤ xs.size)
    (h : ∀ i < n, FaultsOnly allowed (f i)) : FaultsOnly allowed (fill n f xs) := by
  refine faultsOnly_forPlaces (fun _ (ys : Array α) => ys.size = xs.size) rfl fun i hi ys hys => ?_
  constructor
  · rw [faultsOnly_bind]
    exact ⟨h i hi, fun y _ => faultsOnly_store (.inr (by omega))⟩
  · intro zs hzs
    simp only [bind_eq_ok, store_eq_ok] at hzs
    obtain ⟨y, -, -, rfl⟩ := hzs
    rw [Array.size_setIfInBounds, hys]

theorem faultsOnly_mapM {f : α → Except Fault β} {xs : List α}
    (h : ∀ x ∈ xs, FaultsOnly allowed (f x)) : FaultsOnly allowed (xs.mapM f) := by
  induction xs with
  | nil => exact faultsOnly_pure
  | cons x xs ih =>
    obtain ⟨hx, hxs⟩ := List.forall_mem_cons.mp h
    simp [List.mapM_cons, hx, ih hxs]

theorem faultsOnly_forM {f : α → Except Fault Unit} {xs : List α}
    (h : ∀ x ∈ xs, FaultsOnly allowed (f x)) : FaultsOnly allowed (xs.forM f) := by
  induction xs with
  | nil => exact faultsOnly_pure
  | cons x xs ih =>
    obtain ⟨hx, hxs⟩ := List.forall_mem_cons.mp h
    have hcons : (x :: xs).forM f = f x >>= fun _ => xs.forM f := rfl
    rw [hcons, faultsOnly_bind]
    exact ⟨hx, fun _ _ => ih hxs⟩

theorem faultsOnly_foldlM {f : σ → α → Except Fault σ} {xs : List α} {state : σ}
    (h : ∀ state, ∀ x ∈ xs, FaultsOnly allowed (f state x)) :
    FaultsOnly allowed (xs.foldlM f state) := by
  induction xs generalizing state with
  | nil => exact faultsOnly_pure
  | cons x xs ih =>
    rw [List.foldlM_cons, faultsOnly_bind]
    exact ⟨h state x List.mem_cons_self,
      fun next _ => ih fun state y hy => h state y (List.mem_cons_of_mem x hy)⟩

end FaultsOnly

/-! ### Builtins -/

/-- A fault that is not about code: it comes from the values that are computed with. -/
def Fault.IsOfValues (fault : Fault) : Prop := fault.isUnreadable = false

/-- A computation on values, which does not complain about code. -/
abbrev OnValues {α : Type} (x : Except Fault α) : Prop := FaultsOnly Fault.IsOfValues x

namespace OnValues

variable {α : Type} {value : Value}

@[simp] theorem fetch {xs : Array α} {i : Nat} : OnValues (fetch xs i) := faultsOnly_fetch (.inl rfl)

@[simp] theorem store {xs : Array α} {i : Nat} {x : α} : OnValues (store xs i x) :=
  faultsOnly_store (.inl rfl)

@[simp] theorem tabulate {n : Nat} {f : Nat → Except Fault α} (h : ∀ i, OnValues (f i)) :
    OnValues (tabulate n f) :=
  faultsOnly_tabulate fun i _ => h i

@[simp] theorem requireRoom {bytes count : Nat} : OnValues (requireRoom bytes count) := by
  unfold Shading.requireRoom
  split <;> simp [Fault.IsOfValues, Fault.isUnreadable]

@[simp] theorem allocate {type : ElementType} {storage : Storage} {size : Nat} :
    OnValues (Value.allocate type storage size) := by
  simp [Value.allocate]

@[simp] theorem ensure {type : ElementType} {storage : Storage} {size : Nat} :
    OnValues (value.ensure type storage size) := by
  unfold Value.ensure
  split
  · exact faultsOnly_ok
  · exact allocate

@[simp] theorem broadcast {points : Nat} : OnValues (value.broadcast points) := by
  unfold Value.broadcast
  split <;> simp

@[simp] theorem float {i : Nat} : OnValues (value.float i) := fetch

@[simp] theorem vec3 {i : Nat} : OnValues (value.vec3 i) := by
  simp [Value.vec3]

@[simp] theorem matrix {i : Nat} : OnValues (value.matrix i) := by
  unfold Value.matrix
  dsimp only
  split <;> simp [Fault.IsOfValues, Fault.isUnreadable]

@[simp] theorem setFloat {i : Nat} {x : Float32} : OnValues (value.setFloat i x) := by
  simp [Value.setFloat]

@[simp] theorem setVec3 {i : Nat} {v : Vec3} : OnValues (value.setVec3 i v) := by
  simp [Value.setVec3]

@[simp] theorem string : OnValues value.string := by
  unfold Value.string
  split <;> simp [Fault.IsOfValues, Fault.isUnreadable]

@[simp] theorem requireTriple {user : String} : OnValues (requireTriple user value) := by
  unfold Shading.requireTriple
  split <;> simp [Fault.IsOfValues, Fault.isUnreadable]

@[simp] theorem requireUniform {user : String} : OnValues (requireUniform user value) := by
  unfold Shading.requireUniform
  split <;> simp [Fault.IsOfValues, Fault.isUnreadable]

variable {setting : Setting} {arguments : Array Value}

@[simp] theorem isActive {i : Nat} : OnValues (setting.isActive i) := by
  unfold Setting.isActive
  split <;> simp

@[simp] theorem floats {storage : Storage} {f : Nat → Except Fault Float32}
    (h : ∀ i, OnValues (f i)) : OnValues (setting.floats storage f) := by
  simp [Setting.floats, h]

@[simp] theorem triples {type : ElementType} {storage : Storage} {f : Nat → Except Fault Vec3}
    (h : ∀ i, OnValues (f i)) : OnValues (setting.triples type storage f) := by
  simp [Setting.triples, h]

@[simp] theorem leadingMatrix {scene : Scene} {leading : List Value} :
    OnValues (Setting.leadingMatrix scene leading) := by
  unfold Setting.leadingMatrix
  refine faultsOnly_bind.mpr ⟨faultsOnly_forM fun _ _ => requireUniform, fun _ _ => ?_⟩
  split <;> simp [Fault.IsOfValues, Fault.isUnreadable]

@[simp] theorem difference {direction : Direction} :
    OnValues (setting.difference direction value) := by
  unfold Setting.difference
  dsimp only
  split
  · simp [Fault.IsOfValues, Fault.isUnreadable]
  · split
    · exact faultsOnly_pure
    · split
      · simp [Fault.IsOfValues, Fault.isUnreadable]
      · split
        · refine faultsOnly_bind.mpr ⟨tabulate fun i => ?_, fun _ _ => faultsOnly_pure⟩
          split <;> simp
        · refine faultsOnly_bind.mpr ⟨tabulate fun i => ?_, fun _ _ => faultsOnly_pure⟩
          split <;> simp

theorem area : OnValues (setting.area arguments) := by
  unfold Setting.area
  simp only [faultsOnly_bind, fetch, requireTriple, true_and]
  intro p _ _ _
  split
  · exact faultsOnly_pure
  · refine faultsOnly_bind.mpr ⟨tabulate fun i => ?_, fun _ _ => faultsOnly_pure⟩
    split <;> simp

theorem setComponent {axis : Axis} : OnValues (setting.setComponent arguments axis) := by
  unfold Setting.setComponent
  simp only [faultsOnly_bind, fetch, requireTriple, true_and]
  intro p _ x _ _ _
  split
  · simp [Fault.IsOfValues, Fault.isUnreadable]
  · refine faultsOnly_bind.mpr ⟨?_, fun _ _ => store⟩
    refine faultsOnly_forPlaces (fun _ _ => True) trivial fun i _ q _ => ⟨?_, fun _ _ => trivial⟩
    split
    · simp only [faultsOnly_bind, isActive, true_and]
      intro active _
      split <;> simp
    · simp

theorem fresnel : OnValues (setting.fresnel arguments) := by
  unfold Setting.fresnel
  simp only [faultsOnly_bind, fetch, requireTriple, ensure, store, true_and]
  intro incident _ n _ eta _ _ _ _ _ r _ kr _ t _ kt _
  refine ⟨?_, fun _ _ _ _ => trivial⟩
  refine faultsOnly_forPlaces (fun _ _ => True) trivial fun i _ state _ => ⟨?_, fun _ _ => trivial⟩
  simp only [faultsOnly_bind, isActive, true_and]
  intro active _
  split <;> simp

end OnValues

/-- Builtins do not complain about code. -/
theorem Builtin.run_onValues {function : Builtin} {setting : Setting} {arguments : Array Value} :
    OnValues (function.run setting arguments) := by
  cases function <;> simp only [Builtin.run, faultsOnly_map]
  case setComponent => exact OnValues.setComponent
  case fresnel => exact OnValues.fresnel
  case area => exact OnValues.area
  case transform kind =>
    unfold Setting.transform
    split <;> simp [Fault.IsOfValues, Fault.isUnreadable]
  case derivative => simp [Setting.derivative]
  case calculatenormal => simp [Setting.calculatenormal]
  all_goals
    simp [Setting.component, Setting.length, Setting.normalize, Setting.distance, Setting.faceforward,
      Setting.reflect, Setting.refract, Setting.rotate, Setting.depth]

end Shading
