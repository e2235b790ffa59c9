import Shading.Fault

namespace Shading

/-!
# Indexed access

Reading and writing at an index faults beyond the end.

* `fetch`, `store` — one place of an array.
* `forPlaces` — a state passed through one place after another, up to the first fault.
* `tabulate` — an array of computed entries.
* `fill` — the first places of an array, overwritten by computed entries.
* `inGroups` — a list cut into pieces of one length.
-/

variable {α : Type}

/-- The entry at place `i`. -/
def fetch (xs : Array α) (i : Nat) : Except Fault α :=
  if h : i < xs.size then .ok xs[i] else .error .outOfRange

/-- Overwrites the entry at place `i`. -/
def store (xs : Array α) (i : Nat) (x : α) : Except Fault (Array α) :=
  if h : i < xs.size then .ok (xs.set i x h) else .error .outOfRange

/-- Passes a state through `step i`, `step (i + 1)`, … for `count` places.  Nothing is done for the
    places behind the first fault, however many they are. -/
def forPlacesFrom {σ : Type} (step : Nat → σ → Except Fault σ) : Nat → Nat → σ → Except Fault σ
  | 0, _, state => .ok state
  | count + 1, i, state =>
    match step i state with
    | .ok state => forPlacesFrom step count (i + 1) state
    | .error fault => .error fault

/-- Passes a state through `step 0`, `step 1`, …, `step (n - 1)`. -/
def forPlaces {σ : Type} (n : Nat) (state : σ) (step : Nat → σ → Except Fault σ) :
    Except Fault σ :=
  forPlacesFrom step n 0 state

theorem forPlacesFrom_eq_foldlM {σ : Type} (step : Nat → σ → Except Fault σ) (n i : Nat)
    (state : σ) :
    forPlacesFrom step n i state =
      (List.range' i n).foldlM (fun state i => step i state) state := by
  induction n generalizing i state with
  | zero => rfl
  | succ n ih =>
    simp only [forPlacesFrom, List.range'_succ, List.foldlM_cons]
    cases step i state with
    | ok next => exact ih (i + 1) next
    | error fault => rfl

theorem forPlaces_eq_foldlM {σ : Type} (n : Nat) (state : σ) (step : Nat → σ → Except Fault σ) :
    forPlaces n state step = (List.range n).foldlM (fun state i => step i state) state := by
  rw [forPlaces, forPlacesFrom_eq_foldlM, List.range_eq_range']

/-- The array of `f 0`, `f 1`, …, `f (n - 1)`. -/
def tabulate (n : Nat) (f : Nat → Except Fault α) : Except Fault (Array α) :=
  forPlaces n #[] fun i xs => return xs.push (← f i)

/-- A list cut into groups of `width` entries, the last one perhaps shorter. -/
def inGroups (width : Nat) (xs : List α) : List (List α) :=
  (List.range ((xs.length + width - 1) / width)).map fun i => (xs.drop (i * width)).take width

/-- Overwrites the first `n` places of `xs` by `f 0`, `f 1`, …, `f (n - 1)`. -/
def fill (n : Nat) (f : Nat → Except Fault α) (xs : Array α) : Except Fault (Array α) :=
  forPlaces n xs fun i xs => do store xs i (← f i)

end Shading
