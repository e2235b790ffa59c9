import Shading.Proofs.Lockstep
import Shading.Proofs.Operations
import Shading.Proofs.Upkeep

namespace Shading

/-!
# Shading in place is shading a copy

Shading from a grid to a copy of it stores results over the values that were read.  Shading in place
first takes these values out of the grid, and puts the results into what is left of it.  Both come to
the same, since whatever was taken out is stored again.

* `Grid.SameAs` — grids that bind the same values to the same names;
* `Machine.storedNames` — the names that are stored, and `Machine.storeSymbols_sameAs`;
* `Machine.Alike` — what the two ways of shading have in common.
-/

/-! ### Grids -/

/-- The entry of a name after another entry was deleted. -/
theorem NameMap.find?_erase {α : Type} (map : NameMap α) (name other : String) :
    (map.erase name).find? other = if name = other then none else map.find? other := by
  obtain ⟨entries⟩ := map
  show findIn other (entries.filter fun entry => entry.1 != name)
    = if name = other then none else findIn other entries
  induction entries with
  | nil => simp [findIn]
  | cons entry entries ih =>
    obtain ⟨key, value⟩ := entry
    rw [List.filter_cons]
    split
    next hkey =>
      have hkey : key ≠ name := by simpa using hkey
      rw [findIn, ih, findIn]
      by_cases hother : key = other
      · rw [if_pos hother, if_pos hother, if_neg (by rintro rfl; exact hkey hother)]
      · rw [if_neg hother, if_neg hother]
    next hkey =>
      have hkey : key = name := by simpa using hkey
      rw [ih, findIn, hkey]
      split <;> rfl

namespace Grid

variable {grid grid' : Grid} {name : String} {value : Value}

theorem value?_bind (other : String) :
    (grid.bind name value).value? other = if name = other then some value else grid.value? other :=
  NameMap.find?_insert _ _ _ _

theorem value?_erase (other : String) :
    (grid.erase name).value? other = if name = other then none else grid.value? other :=
  NameMap.find?_erase _ _ _

/-- Grids of the same dimensions that bind the same values to the same names. -/
structure SameAs (grid grid' : Grid) : Prop where
  width_eq : grid.width = grid'.width
  height_eq : grid.height = grid'.height
  value?_eq : ∀ name, grid.value? name = grid'.value? name

end Grid

/-- The grid without what it binds to symbols. -/
theorem Shader.value?_unbind {shader : Shader} {grid : Grid} (name : String) :
    (shader.unbind grid).value? name =
      if ∃ symbol ∈ shader.symbols.symbols.toList, symbol.isBindable = true ∧ symbol.name = name
      then none else grid.value? name := by
  have herase : ∀ (symbols : List Symbol) (grid : Grid),
      (symbols.foldl (fun grid symbol => grid.erase symbol.name) grid).value? name =
        if ∃ symbol ∈ symbols, symbol.name = name then none else grid.value? name := by
    intro symbols
    induction symbols with
    | nil => simp
    | cons symbol symbols ih =>
      intro grid
      rw [List.foldl_cons, ih, Grid.value?_erase]
      by_cases hname : symbol.name = name <;> simp [hname]
  rw [unbind, herase]
  simp [and_assoc]

/-! ### Storing -/

/-- The error is one that validating a grid finds. -/
def MachineError.isMismatch : MachineError → Bool
  | .typeMismatch _ _ _ | .storageMismatch _ _ _ => true
  | _ => false

namespace Machine

variable {σ : Type} {renderer : Renderer σ} {shader : Shader} {machine last last' : Machine σ}
  {grid grid' after after' : Grid} {symbols : List Symbol} {slot turns : Nat}
  {progress progress' : Progress}

/-- The names of the symbols, from the given slot on, that are stored. -/
def storedNames (bound : Array Bool) : List Symbol → Nat → List String
  | [], _ => []
  | symbol :: symbols, slot =>
    if symbol.kind = .global || bound.getD slot false then
      symbol.name :: storedNames bound symbols (slot + 1)
    else
      storedNames bound symbols (slot + 1)

theorem mem_storedNames {bound : Array Bool} {symbol : Symbol} {n : Nat}
    (hsymbol : symbols[n]? = some symbol) (hbound : bound.getD (slot + n) false = true) :
    symbol.name ∈ storedNames bound symbols slot := by
  induction symbols generalizing slot n with
  | nil => cases hsymbol
  | cons first symbols ih =>
    rw [storedNames]
    cases n with
    | zero =>
      obtain rfl := Option.some.inj hsymbol
      rw [Nat.add_zero] at hbound
      rw [if_pos (by rw [hbound, Bool.or_true])]
      exact List.mem_cons_self
    | succ n =>
      have hmem := @ih (slot + 1) n hsymbol (by rwa [Nat.add_right_comm, Nat.add_assoc])
      split
      · exact List.mem_cons_of_mem _ hmem
      · exact hmem

/-- Storing symbols in grids of the same dimensions goes equally far and leaves the same machine.  If
    the grids differ only in what is stored, they do not differ afterwards. -/
theorem storeSymbols_sameAs (hpoints : grid.width * grid.height < UInt64.size)
    (hwidth : grid.width = grid'.width) (hheight : grid.height = grid'.height)
    (hnames : ∀ name, name ∈ storedNames machine.bound symbols slot ∨
      grid.value? name = grid'.value? name)
    (h : storeSymbols symbols slot grid machine = (progress, last, after))
    (h' : storeSymbols symbols slot grid' machine = (progress', last', after')) :
    progress = progress' ∧ last = last' ∧ (progress = .ok () → after.SameAs after') := by
  -- the grids differ at most in names that are still to be stored; in the end none is left
  induction symbols generalizing slot grid grid' machine with
  | nil =>
    obtain ⟨rfl, rfl, rfl⟩ := by simpa [storeSymbols] using h
    obtain ⟨rfl, rfl, rfl⟩ := by simpa [storeSymbols] using h'
    refine ⟨rfl, rfl, fun _ => ⟨hwidth, hheight, fun name => ?_⟩⟩
    exact (hnames name).resolve_left List.not_mem_nil
  | cons symbol symbols ih =>
    rw [storeSymbols] at h h'
    rw [storedNames] at hnames
    split at h
    next hstored =>
      rw [if_pos hstored] at h' hnames
      cases hvalue : fetch machine.registers.symbols slot with
      | error fault =>
        rw [hvalue] at h h'
        obtain ⟨rfl, rfl, rfl⟩ := by simpa using h
        obtain ⟨rfl, rfl, rfl⟩ := by simpa using h'
        exact ⟨rfl, rfl, by simp⟩
      | ok value =>
        have hpoints' : grid'.width * grid'.height < UInt64.size := hwidth ▸ hheight ▸ hpoints
        rw [hvalue] at h h'
        dsimp only at h h'
        rw [Grid.insert_eq hpoints] at h
        rw [Grid.insert_eq hpoints', ← hwidth, ← hheight] at h'
        by_cases hsize : value.size = value.storage.size (grid.width * grid.height)
        · rw [if_pos hsize] at h h'
          dsimp only at h h'
          refine ih ?_ ?_ ?_ (fun name => ?_) h h'
          · exact hpoints
          · exact hwidth
          · exact hheight
          rw [Grid.value?_bind, Grid.value?_bind]
          obtain hmem | heq := hnames name
          · obtain rfl | hmem := List.mem_cons.mp hmem
            · exact .inr (by rw [if_pos rfl, if_pos rfl])
            · exact .inl hmem
          · exact .inr (by rw [heq])
        · rw [if_neg hsize] at h h'
          obtain ⟨rfl, rfl, rfl⟩ := by simpa using h
          obtain ⟨rfl, rfl, rfl⟩ := by simpa using h'
          exact ⟨rfl, rfl, by simp⟩
    next hstored =>
      rw [if_neg hstored] at h' hnames
      exact ih hpoints hwidth hheight hnames h h'

/-- Storing all symbols of a machine that has them is only refused by the grid. -/
theorem storeSymbols_refused {failure : Failure MachineError}
    (hpoints : grid.width * grid.height < UInt64.size)
    (hsize : slot + symbols.length ≤ machine.registers.symbols.size)
    (h : storeSymbols symbols slot grid machine = (.error failure, last, after)) :
    ∃ error, failure = .error (.grid error) := by
  induction symbols generalizing slot grid machine with
  | nil => simp [storeSymbols] at h
  | cons symbol symbols ih =>
    rw [List.length_cons] at hsize
    rw [storeSymbols] at h
    split at h
    next =>
      have hvalue : fetch machine.registers.symbols slot = .ok machine.registers.symbols[slot] :=
        fetch_eq_ok.mpr (Array.getElem?_eq_getElem (by omega))
      rw [hvalue] at h
      dsimp only at h
      rw [Grid.insert_eq hpoints] at h
      split at h
      next grid' hinsert =>
        split at hinsert
        · obtain rfl := Except.ok.inj hinsert
          refine ih ?_ ?_ h
          · exact hpoints
          · rw [Array.size_setIfInBounds]
            omega
        · cases hinsert
      next failure' hinsert =>
        split at hinsert
        · cases hinsert
        · obtain rfl := Except.error.inj hinsert
          obtain ⟨rfl, -, -⟩ := by simpa using h
          exact ⟨_, rfl⟩
    next => exact ih hpoints (by omega) h

/-! ### Runs -/

/-- A run ends in no error but the limit of instructions. -/
theorem run_error {error : MachineError} (h : (run renderer shader turns machine).1
    = .failed (.error error)) : ∃ limit, error = .instructionLimit limit := by
  induction turns generalizing machine with
  | zero => cases h
  | succ turns ih =>
    rw [run, turn] at h
    cases hword : shader.code[machine.ip]? with
    | none => simp [hword] at h
    | some word =>
      cases hreached : machine.reachedLimit? with
      | some limit =>
        obtain rfl : MachineError.instructionLimit limit = error := by simpa [hword, hreached] using h
        exact ⟨limit, rfl⟩
      | none =>
        cases hstep : machine.step renderer shader word with
        | error fault => simp [hword, hreached, hstep] at h
        | ok result =>
          obtain ⟨flow, next⟩ := result
          cases flow with
          | next => exact ih (by simpa [hword, hreached, hstep] using h)
          | jump target => exact ih (by simpa [hword, hreached, hstep] using h)
          | halt => simp [hword, hreached, hstep] at h

/-- A run keeps the number of symbols, and which of them were read from the grid. -/
theorem run_keeps (hrenderer : renderer.KeepsCount) :
    (run renderer shader turns machine).2.registers.symbols.size = machine.registers.symbols.size ∧
      (run renderer shader turns machine).2.bound = machine.bound := by
  refine run_invariant (fun next => next.registers.symbols.size = machine.registers.symbols.size ∧
    next.bound = machine.bound) ?_ turns ⟨rfl, rfl⟩
  rintro machine' next word flow ⟨hsize, hbound⟩ - hstep
  obtain ⟨_, _, last, -, -, hperform, hmoved⟩ := step_eq_ok.mp hstep
  have hperformed := perform_eq_ok.mp hperform
  have hsizes := hperformed.sameSizes hrenderer
  obtain ⟨_, _, _, rfl⟩ := hperformed.frame
  obtain ⟨_, rfl⟩ := eq_of_moved hmoved
  exact ⟨hsizes.symbols.trans hsize, hbound⟩

/-- A run that does not fault has all symbols of its shader in the end. -/
theorem execute_keeps {loaded ran : Machine σ} {outcome : Outcome} (hrenderer : renderer.KeepsCount)
    (h : execute renderer shader turns loaded = (outcome, ran))
    (hfault : ∀ fault, outcome ≠ .failed (.fault fault)) :
    ran.registers.symbols.size = shader.symbols.size ∧ ran.bound = loaded.bound ∧
      ∀ error, outcome = .failed (.error error) → ∃ limit, error = .instructionLimit limit := by
  rw [execute] at h
  split at h
  next hsize =>
    split at h
    next first hready =>
      have hfirst : first.registers.symbols = loaded.registers.symbols ∧
          first.bound = loaded.bound := by
        obtain ⟨-, _, _, hcleared, hregisters, rfl⟩ := ready_eq_ok.mp hready
        obtain ⟨-, rfl⟩ := Registers.clearTemporaries_eq_ok.mp hcleared
        obtain ⟨-, rfl⟩ := Registers.clearTemporaries_eq_ok.mp hregisters
        exact ⟨rfl, rfl⟩
      obtain ⟨hsymbols, hbound⟩ := @run_keeps _ renderer shader first turns hrenderer
      rw [h, hfirst.1] at hsymbols
      rw [h, hfirst.2] at hbound
      refine ⟨hsymbols.trans hsize, hbound, fun error herror => ?_⟩
      exact run_error ((congrArg Prod.fst h).trans herror)
    next fault _ => exact absurd (Prod.mk.inj h).1.symm (hfault fault)
  next => exact absurd (Prod.mk.inj h).1.symm (hfault _)

/-! ### The two ways of shading -/

/-- What shading makes of the grid it stores into, once the run has ended. -/
def deliver (shader : Shader) (grid : Grid) : Outcome × Machine σ → Outcome × Machine σ × Grid
  | (.finished, machine) =>
    let (progress, stored) := store shader grid machine
    (.ofProgress progress, stored)
  | (outcome, machine) => (outcome, machine, grid)

/-- A grid is refused for no other reason than a mismatch. -/
theorem validate_isMismatch {error : MachineError} (h : shader.validate grid = .error error) :
    error.isMismatch = true := by
  obtain ⟨symbol, -, hsymbol⟩ := forM_eq_error h
  split at hsymbol
  · unfold Symbol.checkBinding at hsymbol
    split at hsymbol
    · obtain rfl := Except.error.inj hsymbol
      rfl
    · split at hsymbol
      · obtain rfl := Except.error.inj hsymbol
        rfl
      · cases hsymbol
  · cases hsymbol

theorem shade_eq {input output : Grid} {loaded : Machine σ}
    (hdimensions : (input.width, input.height) = (output.width, output.height))
    (hvalid : shader.validate input = .ok ()) (hload : load shader input machine = .ok loaded) :
    shade renderer shader turns input output machine
      = deliver shader output (execute renderer shader turns loaded) := by
  rw [shade, if_neg (not_not_intro hdimensions), hvalid, hload]
  rfl

/-- What shading a grid into a copy of it and shading it in place have in common. -/
structure Alike (grid : Grid) (shaded inPlace : Outcome × Machine σ × Grid) : Prop where
  /-- Both finish or neither does. -/
  finished : shaded.1 = .finished ↔ inPlace.1 = .finished
  /-- Then they leave the same values after as many instructions. -/
  results : shaded.1 = .finished →
    shaded.2.2.SameAs inPlace.2.2 ∧ shaded.2.1.executed = inPlace.2.1.executed
  /-- They refuse the same grids for the same reason. -/
  mismatch : ∀ error, error.isMismatch = true →
    (shaded.1 = .failed (.error error) ↔ inPlace.1 = .failed (.error error))
  /-- A grid that is refused is left as it is. -/
  untouched : ∀ error, error.isMismatch = true → shaded.1 = .failed (.error error) →
    shaded.2.2 = grid ∧ inPlace.2.2 = grid
  /-- They end in the same faults. -/
  faults : ∀ fault, shaded.1 = .failed (.fault fault) ↔ inPlace.1 = .failed (.fault fault)
  /-- Neither takes longer than the other. -/
  unfinished : shaded.1 = .unfinished ↔ inPlace.1 = .unfinished

/-- Two failures that are no faults, and refuse no grid, have nothing else to do with each other. -/
theorem Alike.of_errors {shaded inPlace : Machine σ × Grid} {error error' : MachineError}
    (h : error.isMismatch = false) (h' : error'.isMismatch = false) :
    Alike grid (.failed (.error error), shaded) (.failed (.error error'), inPlace) where
  finished := by simp
  results := by simp
  mismatch := by
    rintro other hother
    refine iff_of_false ?_ ?_
    · rintro ⟨⟩
      cases h.symm.trans hother
    · rintro ⟨⟩
      cases h'.symm.trans hother
  untouched := by
    rintro other hother ⟨⟩
    cases h.symm.trans hother
  faults := by simp
  unfinished := by simp

/-- What was taken out of the grid is stored again. -/
theorem mem_storedNames_of_unbind (name : String)
    (hbound : machine.bound = shader.symbols.symbols.map fun symbol =>
      (Shader.boundValue? grid symbol).isSome) :
    name ∈ storedNames machine.bound shader.symbols.symbols.toList 0 ∨
      grid.value? name = (shader.unbind grid).value? name := by
  rw [Shader.value?_unbind]
  split
  next htaken =>
    obtain ⟨symbol, hsymbol, hbindable, rfl⟩ := htaken
    cases hvalue : grid.value? symbol.name with
    | none => exact .inr rfl
    | some value =>
      obtain ⟨n, hn⟩ := List.mem_iff_getElem?.mp hsymbol
      have hslot : shader.symbols.symbols[n]? = some symbol := by
        rwa [← Array.getElem?_toList]
      refine .inl (mem_storedNames hn ?_)
      simp [hbound, hslot, Shader.boundValue?, hbindable, hvalue]
  next => exact .inr rfl

/-- Once the run has ended, both ways of shading store the same. -/
theorem deliver_alike_settle {outcome : Outcome} {ran : Machine σ}
    (hpoints : grid.width * grid.height < UInt64.size)
    (hran : (∀ fault, outcome ≠ .failed (.fault fault)) →
      ran.registers.symbols.size = shader.symbols.size ∧
      ran.bound = (shader.symbols.symbols.map fun symbol =>
        (Shader.boundValue? grid symbol).isSome) ∧
      ∀ error, outcome = .failed (.error error) → ∃ limit, error = .instructionLimit limit) :
    Alike grid (deliver shader grid (outcome, ran))
      (settle shader (shader.unbind grid) (outcome, ran)) := by
  obtain ⟨hwidth, hheight⟩ := @Shader.unbind_dimensions shader grid
  have hpoints' : (shader.unbind grid).width * (shader.unbind grid).height < UInt64.size := by
    rwa [hwidth, hheight]
  rcases hstore' : store shader (shader.unbind grid) ran with ⟨progress', stored', after'⟩
  have hrefused : ∀ failure, ran.registers.symbols.size = shader.symbols.size →
      progress' = .error failure → ∃ error, failure = .error (.grid error) := by
    rintro failure hsize rfl
    refine storeSymbols_refused hpoints' (Nat.le_of_eq ?_) hstore'
    rw [Nat.zero_add, Array.length_toList, hsize]
    rfl
  cases outcome with
  | unfinished => constructor <;> simp [deliver, settle]
  | finished =>
    obtain ⟨hsize, hbound, -⟩ := hran (by simp)
    rcases hstore : store shader grid ran with ⟨progress, stored, after⟩
    obtain ⟨rfl, rfl, hsame⟩ := storeSymbols_sameAs hpoints hwidth.symm hheight.symm
      (fun name => mem_storedNames_of_unbind name hbound) hstore hstore'
    simp only [deliver, settle, hstore, hstore']
    cases progress with
    | ok _ => exact ⟨by simp [Outcome.ofProgress], fun _ => ⟨hsame rfl, rfl⟩,
        by simp [Outcome.ofProgress], by simp [Outcome.ofProgress], by simp [Outcome.ofProgress],
        by simp [Outcome.ofProgress]⟩
    | error failure =>
      obtain ⟨error, rfl⟩ := hrefused failure hsize rfl
      exact .of_errors rfl rfl
  | failed failure =>
    cases failure with
    | fault fault => constructor <;> simp [deliver, settle]
    | error error =>
      -- here shading in place stores as well, and what it reports may be an error of the grid
      obtain ⟨hsize, -, hlimit⟩ := hran (by simp)
      obtain ⟨limit, rfl⟩ := hlimit error rfl
      simp only [deliver, settle, hstore']
      cases progress' with
      | ok _ => exact .of_errors rfl rfl
      | error failure =>
        obtain ⟨error, rfl⟩ := hrefused failure hsize rfl
        exact .of_errors rfl rfl

/-- **Shading in place.**  Shading a grid in place does what shading it into a copy does: both finish
    with the same values after as many instructions, or both refuse the grid and leave it alone, or
    both end in the same fault. -/
theorem shade_alike_shadeInPlace (hrenderer : renderer.KeepsCount) (shader : Shader) (turns : Nat)
    (grid : Grid) (machine : Machine σ) :
    Alike grid (shade renderer shader turns grid grid machine)
      (shadeInPlace renderer shader turns grid machine) := by
  cases hvalid : shader.validate grid with
  | error error =>
    rw [shade, if_neg (not_not_intro rfl), shadeInPlace, hvalid]
    constructor <;> simp
  | ok _ =>
    cases hload : load shader grid machine with
    | error fault =>
      rw [shade, if_neg (not_not_intro rfl), shadeInPlace, hvalid, hload]
      constructor <;> simp
    | ok loaded =>
      rw [shade_eq rfl hvalid hload, shadeInPlace_eq hvalid hload]
      rcases hexecute : execute renderer shader turns loaded with ⟨outcome, ran⟩
      obtain ⟨hpoints, _, -, rfl⟩ := load_eq_ok.mp hload
      exact deliver_alike_settle hpoints fun hfault => execute_keeps hrenderer hexecute hfault

theorem shade_alike_shadeInPlace_doubleWhereSet :
    (shade (.ofScene .still) doubleWhereSet 10 twoPoints twoPoints idle).1 = .finished ∧
      Alike twoPoints (shade (.ofScene .still) doubleWhereSet 10 twoPoints twoPoints idle)
        (shadeInPlace (.ofScene .still) doubleWhereSet 10 twoPoints idle) :=
  ⟨by decide +kernel, shade_alike_shadeInPlace (Renderer.ofScene_onlyWritesFloats _).keepsCount _ _ _ _⟩

end Machine

end Shading
