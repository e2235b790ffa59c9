import Shading.Proofs.Passing

namespace Shading

/-!
# What instructions do not look at

An instruction looks neither at the configuration of the machine nor at the record of which symbols
were read from the grid: the one is for the run around it, the other for storing.  So a machine in
which they are changed executes instructions as before.

* `Machine.reframe` — the machine with both changed;
* `Machine.perform_reframe`, `Machine.step_reframe` — commands and instructions.
-/

namespace Machine

variable {σ : Type} {renderer : Renderer σ} {shader : Shader} {constants : Array Value}
  {machine : Machine σ} {instruction : Instruction} {command : Command} {word : Word}
  {config : Config → Config} {bound : Array Bool → Array Bool}

/-- The machine with its configuration changed, and its record of what was read from the grid. -/
def reframe (config : Config → Config) (bound : Array Bool → Array Bool) (machine : Machine σ) :
    Machine σ :=
  { machine with config := config machine.config, bound := bound machine.bound }

theorem compute_reframe {op : PointOp} {type : Option ElementType} {result first last : Address} :
    (machine.reframe config bound).compute constants instruction op type result first last
      = reframe config bound <$> machine.compute constants instruction op type result first last := by
  unfold compute
  simp only [map_bind, map_pure]
  rfl

theorem assign_reframe {update : Update} {target source : Address} :
    (machine.reframe config bound).assign constants instruction update target source
      = reframe config bound <$> machine.assign constants instruction update target source := by
  rw [assign_eq, assign_eq]
  simp only [map_bind, map_pure]
  rfl

theorem call_reframe {scene : Scene} {function : Builtin} {result : Address}
    {addresses : List Address} :
    (machine.reframe config bound).call constants scene function result addresses
      = reframe config bound <$> machine.call constants scene function result addresses := by
  rw [call_eq, call_eq]
  simp only [map_bind, map_pure]
  rfl

/-- **Commands.**  No command looks at the configuration or at what is to be stored. -/
theorem perform_reframe :
    (machine.reframe config bound).perform renderer shader instruction command
      = Prod.map id (reframe config bound) <$>
          machine.perform renderer shader instruction command := by
  cases command with
  | nothing | halt => rfl
  | jump condition target =>
    simp only [perform, map_bind]
    refine bind_congr fun taken => ?_
    cases taken with
    | false => rfl
    | true => cases target <;> rfl
  | compute => simp only [perform, compute_reframe, bind_map_left, map_bind, map_pure]; rfl
  | assign => simp only [perform, assign_reframe, bind_map_left, map_bind, map_pure]; rfl
  | call => simp only [perform, call_reframe, bind_map_left, map_bind, map_pure]; rfl
  | discard | clearMask | generateMask | invertMask =>
    simp only [perform, map_bind, map_pure]
    rfl
  | evaluate =>
    simp only [perform, evaluate, bind_assoc, map_bind, map_pure]
    rfl

/-- **Instructions.**  Nor does the move to the next offset. -/
theorem step_reframe : (machine.reframe config bound).step renderer shader word
    = Prod.map id (reframe config bound) <$> machine.step renderer shader word := by
  have hcounted : { machine.reframe config bound with
        executed := (machine.reframe config bound).executed + 1 }
      = reframe config bound { machine with executed := machine.executed + 1 } := rfl
  have hmoved : ∀ (last : Machine σ) ip opcode flow,
      (last.reframe config bound).moved shader.code ip opcode flow
        = reframe config bound <$> last.moved shader.code ip opcode flow := by
    intro last ip opcode flow
    cases flow with
    | next =>
      simp only [moved, map_bind, map_pure]
      rfl
    | jump target => rfl
    | halt => rfl
  rw [step_eq, step_eq, hcounted]
  simp only [perform_reframe, Prod.map_fst, Prod.map_snd, id, hmoved, bind_map_left, map_bind,
    map_pure]
  rfl

theorem ready_reframe : (machine.reframe config bound).ready shader
    = reframe config bound <$> machine.ready shader := by
  unfold ready reset
  simp only [bind_assoc, map_bind, map_pure]
  rfl

end Machine

end Shading
