import Mathlib
import Shading.Indexed
import Shading.Limits

namespace Shading

/-!
# What loops over places compute

Every loop of the machine is a `forPlaces` over an array.  Here each form of it is described by when
it ends without a fault and what it then leaves at every place, so that later proofs need no
induction of their own.

* `tabulate_eq_ok`, `fill_eq_ok` — the two loops that compute entries;
* `forPlaces_eq_ok` — loops that change an array in place, each step at places of its own.
-/

variable {α β σ : Type}

/-! ### Computations that may fault -/

section Except

variable {ε : Type} {x : Except ε α} {f : α → Except ε β} {b : β}

/-- A sequence of two computations succeeds exactly if both do. -/
@[simp] theorem bind_eq_ok : (x >>= f) = .ok b ↔ ∃ a, x = .ok a ∧ f a = .ok b := by
  cases x <;> simp [bind, Except.bind]

@[simp] theorem pure_eq_ok {a b : α} : (pure a : Except ε α) = .ok b ↔ a = b := by
  simp [pure, Except.pure]

@[simp] theorem throw_eq_ok {e : ε} {b : α} : (throw e : Except ε α) = .ok b ↔ False := by
  simp [throw, throwThe, MonadExceptOf.throw]

@[simp] theorem map_eq_ok {g : α → β} : (g <$> x) = .ok b ↔ ∃ a, x = .ok a ∧ g a = b := by
  cases x <;> simp [Functor.map, Except.map]

@[simp] theorem mapError_eq_ok {ε' : Type} {g : ε → ε'} {a : α} :
    x.mapError g = .ok a ↔ x = .ok a := by
  cases x <;> simp [Except.mapError]

@[simp] theorem discard_eq_ok {u : Unit} : discard x = .ok u ↔ ∃ a, x = .ok a := by
  cases x <;> simp [discard, Functor.discard, Functor.mapConst, Except.map]

/-- What follows a computation matters only for what it can give. -/
theorem bind_congr_ok {f g : α → Except ε β} (h : ∀ a, x = .ok a → f a = g a) :
    x >>= f = x >>= g := by
  cases x with
  | error e => rfl
  | ok a => exact h a rfl

end Except

/-- A computation for each entry of a list succeeds exactly if it does for every one. -/
theorem mapM_eq_ok {ε : Type} {f : α → Except ε β} {xs : List α} {ys : List β} :
    xs.mapM f = .ok ys ↔
      xs.length = ys.length ∧ ∀ (n : Nat) x, xs[n]? = some x → ∃ y, ys[n]? = some y ∧ f x = .ok y := by
  induction xs generalizing ys with
  | nil =>
    rw [List.mapM_nil, pure_eq_ok]
    cases ys <;> simp
  | cons x xs ih =>
    simp only [List.mapM_cons, bind_eq_ok, pure_eq_ok, ih]
    constructor
    · rintro ⟨y, hy, ys, ⟨hlength, hall⟩, rfl⟩
      refine ⟨by simp [hlength], fun n z hz => ?_⟩
      cases n with
      | zero => exact ⟨y, rfl, by simp_all⟩
      | succ n => exact hall n z hz
    · rintro ⟨hlength, hall⟩
      obtain ⟨y, hy, hx⟩ := hall 0 x rfl
      cases ys with
      | nil => simp at hy
      | cons y' ys =>
        obtain rfl : y' = y := by simpa using hy
        exact ⟨y', hx, ys, ⟨by simpa using hlength, fun n z hz => hall (n + 1) z hz⟩, rfl⟩

theorem exists_of_mapM {ε : Type} {f : α → Except ε β} {xs : List α} {ys : List β}
    (h : xs.mapM f = .ok ys) {x : α} (hx : x ∈ xs) : ∃ y, f x = .ok y := by
  obtain ⟨n, hn⟩ := List.mem_iff_getElem?.mp hx
  obtain ⟨y, -, hy⟩ := (mapM_eq_ok.mp h).2 n x hn
  exact ⟨y, hy⟩

theorem exists_of_mem_mapM {ε : Type} {f : α → Except ε β} {xs : List α} {ys : List β}
    (h : xs.mapM f = .ok ys) {y : β} (hy : y ∈ ys) : ∃ x ∈ xs, f x = .ok y := by
  obtain ⟨hlength, hall⟩ := mapM_eq_ok.mp h
  obtain ⟨n, hn⟩ := List.mem_iff_getElem?.mp hy
  have hlt : n < xs.length := hlength ▸ (List.getElem?_eq_some_iff.mp hn).1
  obtain ⟨y', hy', hf⟩ := hall n _ (List.getElem?_eq_getElem hlt)
  exact ⟨_, List.getElem_mem hlt, Option.some.inj (hn.symm.trans hy') ▸ hf⟩

/-- A computation that always gives what a function gives, for each entry of a list. -/
theorem eq_map_of_mapM {ε : Type} {f : α → Except ε β} {g : α → β} {xs : List α} {ys : List β}
    (hfg : ∀ x y, f x = .ok y → y = g x) (h : xs.mapM f = .ok ys) : ys = xs.map g := by
  induction xs generalizing ys with
  | nil => exact (pure_eq_ok.mp h).symm
  | cons x xs ih =>
    simp only [List.mapM_cons, bind_eq_ok, pure_eq_ok] at h
    obtain ⟨y, hy, ys, hys, rfl⟩ := h
    rw [List.map_cons, hfg x y hy, ih hys]

theorem mapM_of_eq_ok {ε : Type} {f : α → Except ε β} {g : α → β} {xs : List α}
    (h : ∀ x ∈ xs, f x = .ok (g x)) : xs.mapM f = .ok (xs.map g) := by
  induction xs with
  | nil => rfl
  | cons x xs ih =>
    obtain ⟨hx, hxs⟩ := List.forall_mem_cons.mp h
    simp only [List.mapM_cons, bind_eq_ok, pure_eq_ok]
    exact ⟨g x, hx, xs.map g, ih hxs, rfl⟩

theorem array_mapM_eq_ok {ε : Type} {f : α → Except ε β} {xs : Array α} {ys : Array β} :
    xs.mapM f = .ok ys ↔
      xs.size = ys.size ∧ ∀ (n : Nat) x, xs[n]? = some x → ∃ y, ys[n]? = some y ∧ f x = .ok y := by
  rw [Array.mapM_eq_mapM_toList, map_eq_ok]
  constructor
  · rintro ⟨list, hlist, rfl⟩
    simpa using mapM_eq_ok.mp hlist
  · intro h
    exact ⟨ys.toList, mapM_eq_ok.mpr (by simpa using h), rfl⟩

theorem mapM_congr {ε : Type} {f g : α → Except ε β} {xs : List α} (h : ∀ x ∈ xs, f x = g x) :
    xs.mapM f = xs.mapM g := by
  induction xs with
  | nil => rfl
  | cons x xs ih =>
    rw [List.mapM_cons, List.mapM_cons, h x List.mem_cons_self,
      ih fun y hy => h y (List.mem_cons_of_mem x hy)]

/-- A list is gone through to the end, or up to the first entry with an error. -/
theorem mapM_cases {ε : Type} (f : α → Except ε β) (xs : List α) :
    (∃ ys, xs.mapM f = .ok ys) ∨
      ∃ (k : Nat) (x : α) (e : ε), xs[k]? = some x ∧ f x = .error e ∧
        (∀ j y, j < k → xs[j]? = some y → ∃ z, f y = .ok z) ∧ xs.mapM f = .error e := by
  induction xs with
  | nil => exact .inl ⟨[], rfl⟩
  | cons x xs ih =>
    rw [List.mapM_cons]
    rcases hx : f x with e | y
    · exact .inr ⟨0, x, e, rfl, hx, fun j _ hj => absurd hj (Nat.not_lt_zero j), rfl⟩
    · rcases ih with ⟨ys, hys⟩ | ⟨k, z, e, hz, he, hbefore, herror⟩
      · exact .inl ⟨y :: ys, by rw [hys]; rfl⟩
      · refine .inr ⟨k + 1, z, e, hz, he, fun j w hj hw => ?_, by rw [herror]; rfl⟩
        cases j with
        | zero => exact ⟨y, Option.some.inj hw ▸ hx⟩
        | succ j => exact hbefore j w (Nat.lt_of_succ_lt_succ hj) hw

theorem forM_congr {ε : Type} {f g : α → Except ε Unit} {xs : List α} (h : ∀ x ∈ xs, f x = g x) :
    xs.forM f = xs.forM g := by
  induction xs with
  | nil => rfl
  | cons x xs ih =>
    show (f x >>= fun _ => xs.forM f) = (g x >>= fun _ => xs.forM g)
    rw [h x List.mem_cons_self, ih fun y hy => h y (List.mem_cons_of_mem x hy)]

/-- A fold that commutes with a change of form, step by step. -/
theorem foldlM_map {ε τ : Type} {f : σ → α → Except ε σ} {g : τ → α → Except ε τ} (form : σ → τ)
    {xs : List α} {first : σ} (h : ∀ state, ∀ x ∈ xs, g (form state) x = form <$> f state x) :
    xs.foldlM g (form first) = form <$> xs.foldlM f first := by
  induction xs generalizing first with
  | nil => rfl
  | cons x xs ih =>
    rw [List.foldlM_cons, List.foldlM_cons, h first x List.mem_cons_self, bind_map_left, map_bind]
    exact bind_congr fun next => ih fun state y hy => h state y (List.mem_cons_of_mem x hy)

theorem foldlM_append_of_ok {ε : Type} {f : σ → α → Except ε σ} {xs ys : List α} {first next : σ}
    (h : xs.foldlM f first = .ok next) : (xs ++ ys).foldlM f first = ys.foldlM f next := by
  rw [List.foldlM_append, h]
  rfl

/-- Checks of all entries succeed exactly if every one does. -/
theorem forM_eq_ok {ε : Type} {f : α → Except ε Unit} {xs : List α} {u : Unit} :
    xs.forM f = .ok u ↔ ∀ x ∈ xs, f x = .ok () := by
  induction xs with
  | nil => simp [List.forM, pure, Except.pure]
  | cons x xs ih =>
    have hcons : (x :: xs).forM f = f x >>= fun _ => xs.forM f := rfl
    rw [hcons, bind_eq_ok, List.forall_mem_cons]
    constructor
    · rintro ⟨_, hx, hxs⟩
      exact ⟨hx, ih.mp hxs⟩
    · rintro ⟨hx, hxs⟩
      exact ⟨(), hx, ih.mpr hxs⟩

theorem forM_eq_error {ε : Type} {f : α → Except ε Unit} {xs : List α} {e : ε}
    (h : xs.forM f = .error e) : ∃ x ∈ xs, f x = .error e := by
  induction xs with
  | nil => cases h
  | cons x xs ih =>
    have hcons : (x :: xs).forM f = f x >>= fun _ => xs.forM f := rfl
    rw [hcons] at h
    cases hx : f x with
    | error e' =>
      rw [hx] at h
      obtain rfl := Except.error.inj h
      exact ⟨x, List.mem_cons_self, hx⟩
    | ok _ =>
      rw [hx] at h
      obtain ⟨y, hy, hfy⟩ := ih h
      exact ⟨y, List.mem_cons_of_mem x hy, hfy⟩

/-- A property that every step passes on holds at the end of a fold. -/
theorem foldlM_invariant {ε : Type} {f : σ → α → Except ε σ} (P : σ → Prop) {xs : List α}
    {first last : σ} (hfirst : P first)
    (hstep : ∀ state x next, x ∈ xs → P state → f state x = .ok next → P next)
    (hlast : xs.foldlM f first = .ok last) : P last := by
  induction xs generalizing first with
  | nil => exact pure_eq_ok.mp hlast ▸ hfirst
  | cons x xs ih =>
    rw [List.foldlM_cons, bind_eq_ok] at hlast
    obtain ⟨next, hnext, hrest⟩ := hlast
    exact ih (hstep first x next List.mem_cons_self hfirst hnext)
      (fun state y next hy => hstep state y next (List.mem_cons_of_mem x hy)) hrest

/-- A fold whose steps are matched by those of another fold. -/
theorem foldlM_hom {ε τ : Type} {f : σ → α → Except ε σ} {g : τ → α → Except ε τ} (form : σ → τ)
    {xs : List α} {first last : σ}
    (hstep : ∀ state x next, x ∈ xs → f state x = .ok next → g (form state) x = .ok (form next))
    (hlast : xs.foldlM f first = .ok last) : xs.foldlM g (form first) = .ok (form last) := by
  induction xs generalizing first with
  | nil =>
    obtain rfl := pure_eq_ok.mp hlast
    rfl
  | cons x xs ih =>
    rw [List.foldlM_cons, bind_eq_ok] at hlast
    obtain ⟨next, hnext, hrest⟩ := hlast
    rw [List.foldlM_cons, hstep first x next List.mem_cons_self hnext]
    exact ih (fun state y next hy => hstep state y next (List.mem_cons_of_mem x hy)) hrest

/-- Two folds whose states stay related from step to step. -/
theorem foldlM_relates {ε τ : Type} {f : σ → α → Except ε σ} {g : τ → α → Except ε τ}
    (R : σ → τ → Prop) {xs : List α} {s last : σ} {t last' : τ} (hfirst : R s t)
    (hstep : ∀ s t x next next', x ∈ xs → R s t → f s x = .ok next → g t x = .ok next' →
      R next next')
    (h : xs.foldlM f s = .ok last) (h' : xs.foldlM g t = .ok last') : R last last' := by
  induction xs generalizing s t with
  | nil =>
    obtain rfl := pure_eq_ok.mp h
    obtain rfl := pure_eq_ok.mp h'
    exact hfirst
  | cons x xs ih =>
    rw [List.foldlM_cons, bind_eq_ok] at h h'
    obtain ⟨next, hnext, h⟩ := h
    obtain ⟨next', hnext', h'⟩ := h'
    exact ih (hstep s t x next next' List.mem_cons_self hfirst hnext hnext')
      (fun s t y next next' hy => hstep s t y next next' (List.mem_cons_of_mem x hy)) h h'

/-! ### Single places -/

@[simp] theorem fetch_eq_ok {xs : Array α} {i : Nat} {x : α} :
    fetch xs i = .ok x ↔ xs[i]? = some x := by
  unfold fetch
  by_cases h : i < xs.size <;> simp [h]

theorem fetch_eq {xs : Array α} {i : Nat} :
    fetch xs i = match xs[i]? with
      | some x => .ok x
      | none => .error .outOfRange := by
  unfold fetch
  split <;> simp_all

theorem fetch_congr {xs ys : Array α} {i j : Nat} (h : xs[i]? = ys[j]?) :
    fetch xs i = fetch ys j := by
  rw [fetch_eq, fetch_eq, h]

theorem fetch_map {f : α → β} {xs : Array α} {i : Nat} :
    fetch (xs.map f) i = (fetch xs i).map f := by
  rw [fetch_eq, fetch_eq, Array.getElem?_map]
  cases xs[i]? <;> rfl

@[simp] theorem store_eq_ok {xs ys : Array α} {i : Nat} {x : α} :
    store xs i x = .ok ys ↔ i < xs.size ∧ ys = xs.setIfInBounds i x := by
  unfold store
  by_cases h : i < xs.size <;> simp [h, Array.setIfInBounds, eq_comm]

@[simp] theorem requireRoom_eq_ok {bytes count : Nat} {u : Unit} :
    requireRoom bytes count = .ok u ↔ bytes * count < 0x8000000000000000 := by
  unfold requireRoom
  by_cases h : bytes * count < 0x8000000000000000 <;> simp [h]

@[simp] theorem countPoints_eq_ok {width height n : Nat} :
    countPoints width height = .ok n ↔ width * height < UInt64.size ∧ width * height = n := by
  unfold countPoints
  by_cases h : width * height < UInt64.size <;> simp [h]

/-! ### Loops -/

theorem forPlacesFrom_succ {step : Nat → σ → Except Fault σ} {n i : Nat} {first last : σ} :
    forPlacesFrom step (n + 1) i first = .ok last ↔
      ∃ next, step i first = .ok next ∧ forPlacesFrom step n (i + 1) next = .ok last := by
  rw [forPlacesFrom]
  cases step i first <;> simp

@[simp] theorem forPlaces_zero {state : σ} {step : Nat → σ → Except Fault σ} :
    forPlaces 0 state step = .ok state := rfl

@[simp] theorem forPlaces_one {state : σ} {step : Nat → σ → Except Fault σ} :
    forPlaces 1 state step = step 0 state := by
  unfold forPlaces
  rw [forPlacesFrom]
  cases step 0 state <;> rfl

/-- A property that every step passes on holds at the end of a loop. -/
theorem forPlaces_invariant {step : Nat → σ → Except Fault σ} {n : Nat} {first last : σ}
    (P : Nat → σ → Prop) (hfirst : P 0 first)
    (hstep : ∀ i < n, ∀ state next, P i state → step i state = .ok next → P (i + 1) next)
    (hlast : forPlaces n first step = .ok last) : P n last := by
  suffices general : ∀ count i state, i + count = n → P i state →
      forPlacesFrom step count i state = .ok last → P n last from
    general n 0 first (by omega) hfirst hlast
  intro count
  induction count with
  | zero =>
    intro i state hi hstate hrun
    obtain rfl : i = n := by omega
    cases hrun
    exact hstate
  | succ count ih =>
    intro i state hi hstate hrun
    obtain ⟨next, hnext, hrest⟩ := forPlacesFrom_succ.mp hrun
    exact ih (i + 1) next (by omega) (hstep i (by omega) state next hstate hnext) hrest

/-- A loop whose steps do nothing does nothing. -/
theorem forPlaces_eq_self {step : Nat → σ → Except Fault σ} {n : Nat} {state : σ}
    (hstep : ∀ i < n, step i state = .ok state) : forPlaces n state step = .ok state := by
  suffices general : ∀ count i, i + count = n → forPlacesFrom step count i state = .ok state from
    general n 0 (by omega)
  intro count
  induction count with
  | zero => exact fun i hi => rfl
  | succ count ih =>
    intro i hi
    exact forPlacesFrom_succ.mpr ⟨state, hstep i (by omega), ih (i + 1) (by omega)⟩

/-- A loop that is known to be in state `after i` when `i` steps are done, if these could be. -/
theorem forPlaces_eq_ok_after {step : Nat → σ → Except Fault σ} {n : Nat} {last : σ}
    (after : Nat → σ) (ready : Nat → Prop)
    (hstep : ∀ i < n, ∀ next, step i (after i) = .ok next ↔ ready i ∧ next = after (i + 1)) :
    forPlaces n (after 0) step = .ok last ↔ (∀ i < n, ready i) ∧ last = after n := by
  -- from place `i` on, in the state that the places before it leave
  suffices general : ∀ count i, i + count = n →
      (forPlacesFrom step count i (after i) = .ok last ↔
        (∀ j, i ≤ j → j < n → ready j) ∧ last = after n) by
    rw [forPlaces, general n 0 (by omega)]
    simp
  intro count
  induction count with
  | zero =>
    intro i hi
    obtain rfl : i = n := by omega
    rw [forPlacesFrom, Except.ok.injEq]
    constructor
    · intro hlast
      exact ⟨fun j hij hji => by omega, hlast.symm⟩
    · intro hlast
      exact hlast.2.symm
  | succ count ih =>
    intro i hi
    rw [forPlacesFrom_succ]
    constructor
    · rintro ⟨next, hdone, hrest⟩
      obtain ⟨hready, rfl⟩ := (hstep i (by omega) next).mp hdone
      obtain ⟨hlater, hlast⟩ := (ih (i + 1) (by omega)).mp hrest
      refine ⟨fun j hij hjn => ?_, hlast⟩
      rcases Nat.eq_or_lt_of_le hij with rfl | hlt
      · exact hready
      · exact hlater j hlt hjn
    · rintro ⟨hready, hlast⟩
      refine ⟨_, (hstep i (by omega) _).mpr ⟨hready i (by omega) (by omega), rfl⟩, ?_⟩
      exact (ih (i + 1) (by omega)).mpr ⟨fun j hij hjn => hready j (by omega) hjn, hlast⟩

/-- A loop that goes through also does so with steps that do the same wherever its own go through. -/
theorem forPlaces_mono {step step' : Nat → σ → Except Fault σ} {n : Nat} {first last : σ}
    (hstep : ∀ i < n, ∀ state next, step i state = .ok next → step' i state = .ok next)
    (h : forPlaces n first step = .ok last) : forPlaces n first step' = .ok last := by
  rw [forPlaces_eq_foldlM] at h ⊢
  exact foldlM_hom id (fun state i next hi => hstep i (List.mem_range.mp hi) state next) h

/-- A loop on states of one form is a loop on what they are formed of. -/
theorem forPlaces_form {τ : Type} {step : Nat → σ → Except Fault σ}
    {inner : Nat → τ → Except Fault τ} (form : τ → σ) {n : Nat}
    (hstep : ∀ i < n, ∀ t s, step i (form t) = .ok s ↔ ∃ t', inner i t = .ok t' ∧ s = form t')
    {t : τ} {s : σ} :
    forPlaces n (form t) step = .ok s ↔ ∃ t', forPlaces n t inner = .ok t' ∧ s = form t' := by
  suffices general : ∀ count i t, i + count = n → (forPlacesFrom step count i (form t) = .ok s ↔
      ∃ t', forPlacesFrom inner count i t = .ok t' ∧ s = form t') from
    general n 0 t (by omega)
  intro count
  induction count with
  | zero =>
    intro i t hi
    simp [forPlacesFrom, eq_comm]
  | succ count ih =>
    intro i t hi
    rw [forPlacesFrom_succ]
    constructor
    · rintro ⟨next, hnext, hrest⟩
      obtain ⟨t', ht', rfl⟩ := (hstep i (by omega) t next).mp hnext
      obtain ⟨last, hlast, rfl⟩ := (ih (i + 1) t' (by omega)).mp hrest
      exact ⟨last, forPlacesFrom_succ.mpr ⟨t', ht', hlast⟩, rfl⟩
    · rintro ⟨last, hlast, rfl⟩
      obtain ⟨t', ht', hrest⟩ := forPlacesFrom_succ.mp hlast
      exact ⟨form t', (hstep i (by omega) t _).mpr ⟨t', ht', rfl⟩,
        (ih (i + 1) t' (by omega)).mpr ⟨last, hrest, rfl⟩⟩

/-- The array with `new k` applied at the places `k` that `chosen` picks. -/
def rewriteAt (chosen : Nat → Bool) (new : Nat → α → α) (xs : Array α) : Array α :=
  xs.mapIdx fun k x => if chosen k then new k x else x

@[simp] theorem size_rewriteAt {chosen : Nat → Bool} {new : Nat → α → α} {xs : Array α} :
    (rewriteAt chosen new xs).size = xs.size := by
  simp [rewriteAt]

theorem getElem?_rewriteAt {chosen : Nat → Bool} {new : Nat → α → α} {xs : Array α} {k : Nat} :
    (rewriteAt chosen new xs)[k]? = if chosen k then xs[k]?.map (new k) else xs[k]? := by
  rw [rewriteAt, Array.getElem?_mapIdx]
  by_cases h : chosen k <;> simp [h]

/-- Two changes that leave the same at every place are the same. -/
theorem rewriteAt_congr {chosen chosen' : Nat → Bool} {new new' : Nat → α → α} {xs : Array α}
    (h : ∀ k x, xs[k]? = some x →
      (if chosen k then new k x else x) = if chosen' k then new' k x else x) :
    rewriteAt chosen new xs = rewriteAt chosen' new' xs := by
  apply Array.ext_getElem?
  intro k
  rw [rewriteAt, rewriteAt, Array.getElem?_mapIdx, Array.getElem?_mapIdx]
  cases hx : xs[k]? with
  | none => rfl
  | some x => exact congrArg some (h k x hx)

theorem rewriteAt_eq_self {chosen : Nat → Bool} {new : Nat → α → α} {xs : Array α}
    (h : ∀ k, chosen k = false) : rewriteAt chosen new xs = xs := by
  apply Array.ext_getElem?
  intro k
  rw [getElem?_rewriteAt, h k]
  rfl

/-- After the places of the owners below `i` come those of `i`. -/
theorem rewriteAt_next {owner : Nat → Nat} {new : Nat → α → α} {xs : Array α} {i : Nat} :
    rewriteAt (fun k => owner k = i) new (rewriteAt (fun k => owner k < i) new xs)
      = rewriteAt (fun k => owner k < i + 1) new xs := by
  apply Array.ext_getElem?
  intro k
  simp only [getElem?_rewriteAt, decide_eq_true_eq]
  by_cases hlt : owner k < i
  · rw [if_neg (by omega), if_pos hlt, if_pos (by omega)]
  · by_cases heq : owner k = i
    · rw [if_pos heq, if_neg hlt, if_pos (by omega)]
    · rw [if_neg heq, if_neg hlt, if_neg (by omega)]

/-- **Loops in place.**  Let step `i` change the places that `i` owns, each by itself.  Then the loop
    succeeds exactly if every step is ready to, and has changed the places of every owner. -/
theorem forPlaces_eq_ok {xs ys : Array α} {n : Nat} {step : Nat → Array α → Except Fault (Array α)}
    (owner : Nat → Nat) (ready : Nat → Prop) (new : Nat → α → α)
    (hstep : ∀ i < n, ∀ zs ws : Array α, zs.size = xs.size →
      (step i zs = .ok ws ↔ ready i ∧ ws = rewriteAt (fun k => owner k = i) new zs)) :
    forPlaces n xs step = .ok ys ↔
      (∀ i < n, ready i) ∧ ys = rewriteAt (fun k => owner k < n) new xs := by
  have hstart : rewriteAt (fun k => owner k < 0) new xs = xs := rewriteAt_eq_self (by simp)
  rw [← forPlaces_eq_ok_after (fun i => rewriteAt (fun k => owner k < i) new xs) ready, hstart]
  intro i hi ws
  rw [hstep i hi _ ws size_rewriteAt]
  rw [rewriteAt_next]

/-- Storing at one place, as a change of that place. -/
theorem setIfInBounds_eq_rewriteAt {xs : Array α} {i : Nat} {y : α} {new : Nat → α → α}
    (hnew : ∀ x, xs[i]? = some x → new i x = y) :
    xs.setIfInBounds i y = rewriteAt (fun k => k = i) new xs := by
  apply Array.ext_getElem?
  intro k
  rw [getElem?_rewriteAt, Array.getElem?_setIfInBounds]
  by_cases hk : k = i
  · subst hk
    by_cases hlt : k < xs.size
    · have hx : xs[k]? = some xs[k] := Array.getElem?_eq_getElem hlt
      simp [hlt, hnew _ hx]
    · simp [hlt]
  · simp [hk, Ne.symm hk]

/-! ### Computed entries -/

/-- The loop that tabulates succeeds exactly if every entry can be computed. -/
theorem tabulate_eq_ok {n : Nat} {f : Nat → Except Fault α} {xs : Array α} :
    tabulate n f = .ok xs ↔ xs.size = n ∧ ∀ k x, xs[k]? = some x → f k = .ok x := by
  -- what has been pushed before place `i` stays as it is
  suffices general : ∀ count i (zs : Array α), zs.size = i →
      (∀ k x, zs[k]? = some x → f k = .ok x) →
      (forPlacesFrom (fun i xs => do return xs.push (← f i)) count i zs = .ok xs ↔
        xs.size = i + count ∧ (∀ k < i, xs[k]? = zs[k]?) ∧
          ∀ k x, xs[k]? = some x → f k = .ok x) by
    rw [tabulate, forPlaces, general n 0 #[] rfl (by simp)]
    simp
  intro count
  induction count with
  | zero =>
    intro i zs hsize hzs
    rw [forPlacesFrom, Except.ok.injEq]
    constructor
    · rintro rfl
      exact ⟨by omega, fun _ _ => rfl, hzs⟩
    · rintro ⟨hxs, hsame, -⟩
      apply Array.ext_getElem?
      intro k
      by_cases hk : k < i
      · exact (hsame k hk).symm
      · rw [Array.getElem?_eq_none (by omega), Array.getElem?_eq_none (by omega)]
  | succ count ih =>
    intro i zs hsize hzs
    rw [forPlacesFrom_succ]
    simp only [bind_eq_ok, pure_eq_ok]
    have hpush : ∀ y, f i = .ok y → ∀ k x, (zs.push y)[k]? = some x → f k = .ok x := by
      intro y hy k x hk
      rw [Array.getElem?_push, hsize] at hk
      by_cases hki : k = i
      · rw [if_pos hki, Option.some.injEq] at hk
        rw [hki, hy, hk]
      · rw [if_neg hki] at hk
        exact hzs k x hk
    constructor
    · rintro ⟨next, ⟨y, hy, rfl⟩, hrest⟩
      obtain ⟨hxs, hsame, hall⟩ := (ih (i + 1) (zs.push y) (by simp [hsize]) (hpush y hy)).mp hrest
      refine ⟨by omega, fun k hk => ?_, hall⟩
      rw [hsame k (by omega), Array.getElem?_push_lt (by omega), Array.getElem?_eq_getElem]
    · rintro ⟨hxs, hsame, hall⟩
      have hi : i < xs.size := by omega
      have hy : f i = .ok xs[i] := hall i xs[i] (Array.getElem?_eq_getElem hi)
      refine ⟨_, ⟨xs[i], hy, rfl⟩, ?_⟩
      refine (ih (i + 1) (zs.push xs[i]) (by simp [hsize]) (hpush _ hy)).mpr ⟨by omega, ?_, hall⟩
      intro k hk
      rw [Array.getElem?_push, hsize]
      by_cases hki : k = i
      · rw [if_pos hki, hki, Array.getElem?_eq_getElem hi]
      · rw [if_neg hki, hsame k (by omega)]

/-- The loop that fills a buffer succeeds exactly if there is room and every entry can be computed. -/
theorem fill_eq_ok {n : Nat} {f : Nat → Except Fault α} {xs ys : Array α} :
    fill n f xs = .ok ys ↔
      n ≤ xs.size ∧ ys.size = xs.size ∧ (∀ k x, k < n → ys[k]? = some x → f k = .ok x) ∧
        ∀ k, n ≤ k → ys[k]? = xs[k]? := by
  -- the loop rewrites the places before `n`
  have hloop : fill n f xs = .ok ys ↔ (∀ i < n, i < xs.size ∧ ∃ y, f i = .ok y) ∧
      ys = rewriteAt (fun k => k < n) (fun k x => (f k).toOption.getD x) xs := by
    refine forPlaces_eq_ok (fun k => k) _ _ fun i hi zs ws hsize => ?_
    simp only [bind_eq_ok, store_eq_ok]
    constructor
    · rintro ⟨y, hy, hlt, rfl⟩
      exact ⟨⟨by omega, y, hy⟩, setIfInBounds_eq_rewriteAt fun x _ => by simp [hy, Except.toOption]⟩
    · rintro ⟨⟨hlt, y, hy⟩, rfl⟩
      refine ⟨y, hy, by omega, ?_⟩
      exact (setIfInBounds_eq_rewriteAt fun x _ => by simp [hy, Except.toOption]).symm
  rw [hloop]
  constructor
  · rintro ⟨hready, rfl⟩
    refine ⟨?_, size_rewriteAt, ?_, ?_⟩
    · rcases Nat.eq_zero_or_pos n with hn | hn
      · omega
      · have := (hready (n - 1) (by omega)).1
        omega
    · intro k x hk hx
      obtain ⟨hlt, y, hy⟩ := hready k hk
      rw [getElem?_rewriteAt, if_pos (by simpa using hk), hy] at hx
      simp [hlt, Except.toOption] at hx
      rw [hy, hx]
    · intro k hk
      rw [getElem?_rewriteAt, if_neg (by simpa using hk)]
  · rintro ⟨hn, hsize, hnew, hold⟩
    have hat : ∀ k < n, ∃ y, ys[k]? = some y ∧ f k = .ok y := by
      intro k hk
      have hy : ys[k]? = some ys[k] := Array.getElem?_eq_getElem (by omega)
      exact ⟨_, hy, hnew k _ hk hy⟩
    refine ⟨fun i hi => ⟨by omega, (hat i hi).imp fun y hy => hy.2⟩, ?_⟩
    apply Array.ext_getElem?
    intro k
    rw [getElem?_rewriteAt]
    by_cases hk : k < n
    · obtain ⟨y, hy, hf⟩ := hat k hk
      rw [if_pos (by simpa using hk), hf, hy, Array.getElem?_eq_getElem (by omega)]
      rfl
    · rw [if_neg (by simpa using hk), hold k (by omega)]

end Shading
