import Shading.Machine.Shade
import Shading.Proofs.CutMachine
import Shading.Proofs.Declarations

namespace Shading

/-!
# Running in lockstep is running point by point

A machine executes each instruction at all points at once.  For a shader whose code does not jump and
whose commands look at one point only, running it over a grid gives at each point what running it over
that point alone gives.

* `Grid.cut` — a grid cut down to one of its points;
* `Boundary`, `Shader.IsPointwise` — the code in question;
* `Machine.run_cut` — a run;
* `Machine.shadeInPlace_cut` — shading a grid in place.
-/

variable {points i : Nat}

/-! ### Grids -/

namespace NameMap

variable {α β : Type} {f : α → β} {name : String}

/-- The map with `f` applied to every value. -/
def mapValues (f : α → β) (map : NameMap α) : NameMap β :=
  ⟨map.entries.map fun entry => (entry.1, f entry.2)⟩

theorem findIn_map {entries : List (String × α)} :
    findIn name (entries.map fun entry => (entry.1, f entry.2)) = (findIn name entries).map f := by
  induction entries with
  | nil => rfl
  | cons entry entries ih =>
    rw [List.map_cons, findIn, findIn]
    split
    · rfl
    · exact ih

theorem insertIn_map {entries : List (String × α)} {value : α} :
    insertIn name (f value) (entries.map fun entry => (entry.1, f entry.2))
      = (insertIn name value entries).map fun entry => (entry.1, f entry.2) := by
  induction entries with
  | nil => rfl
  | cons entry entries ih =>
    rw [List.map_cons, insertIn, insertIn]
    split
    · rfl
    · split
      · rfl
      · rw [List.map_cons, ih]

theorem find?_mapValues {map : NameMap α} :
    (map.mapValues f).find? name = (map.find? name).map f :=
  findIn_map

theorem insert_mapValues {map : NameMap α} {value : α} :
    (map.mapValues f).insert name (f value) = (map.insert name value).mapValues f :=
  congrArg NameMap.mk insertIn_map

theorem erase_mapValues {map : NameMap α} :
    (map.mapValues f).erase name = (map.erase name).mapValues f := by
  simp only [erase, mapValues, List.filter_map]
  rfl

end NameMap

namespace Grid

variable {grid : Grid} {name : String}

/-- What is left of a grid at point `i`. -/
def cut (grid : Grid) (i : Nat) : Grid := ⟨1, 1, grid.values.mapValues (Value.cut · i)⟩

/-- Every value that is bound has the right number of elements, and floats for each of them. -/
def IsValid (grid : Grid) : Prop :=
  ∀ name value, grid.value? name = some value →
    value.size = value.storage.size (grid.width * grid.height) ∧
      value.floats.size = value.components * value.size

theorem cut_value? : (grid.cut i).value? name = (grid.value? name).map (Value.cut · i) :=
  NameMap.find?_mapValues

theorem cut_erase : (grid.erase name).cut i = (grid.cut i).erase name := by
  unfold erase cut
  rw [NameMap.erase_mapValues]

theorem cut_bind {value : Value} : (grid.bind name value).cut i = (grid.cut i).bind name (value.cut i) := by
  unfold bind cut
  rw [NameMap.insert_mapValues]

end Grid

/-! ### Runs -/

/-- The offsets at which instructions start, and the one behind the last of them, when code is read
    from its first word on. -/
inductive Boundary (code : Array Word) : Nat → Prop
  | first : Boundary code 0
  | next {ip size : Nat} {word : Word} {instruction : Instruction} (before : Boundary code ip)
      (hword : code[ip]? = some word) (hinstruction : Instruction.decode word = .ok instruction)
      (hsize : instructionSize code ip instruction.opcode = .ok size) : Boundary code (ip + size)

/-- The code has no jumps, evaluates no shaders and calls no builtin that looks at neighbours. -/
def Shader.IsPointwise (shader : Shader) : Prop :=
  ∀ ip command, Boundary shader.code ip → shader.CommandAt ip command → command.isPointwise = true

namespace Machine

variable {σ : Type} {renderer : Renderer σ} {shader : Shader} {machine next last : Machine σ}

/-- The machines that a run comes to. -/
inductive Reaches (renderer : Renderer σ) (shader : Shader) (first : Machine σ) : Machine σ → Prop
  | start : Reaches renderer shader first first
  | turn {machine next : Machine σ} (before : Reaches renderer shader first machine)
      (h : turn renderer shader machine = .on next) : Reaches renderer shader first next

theorem Reaches.head (h : Machine.turn renderer shader machine = .on next)
    (hreaches : Reaches renderer shader next last) : Reaches renderer shader machine last := by
  induction hreaches with
  | start => exact .turn .start h
  | turn _ h' ih => exact .turn ih h'

/-- In the run from here, floats are passed where builtins read floats at every point. -/
def CallsPassFloats (renderer : Renderer σ) (shader : Shader) (first : Machine σ) : Prop :=
  ∀ machine command, Reaches renderer shader first machine →
    shader.CommandAt machine.ip command → machine.PassesFloats shader.constants command

/-- Commands other than jumps lead to the next instruction, or to none. -/
theorem flow_of_ne_jump {instruction : Instruction} {command : Command} {flow : Flow}
    (hcommand : ∀ condition target, command ≠ .jump condition target)
    (h : Performed renderer shader instruction machine command flow next) :
    flow = .next ∨ flow = .halt := by
  cases h with
  | jump condition target => exact absurd rfl (hcommand condition (some target))
  | halt => exact .inr rfl
  | _ => exact .inl rfl

/-- An instruction that does not jump leads to the start of another one. -/
theorem boundary_of_step {word : Word} {flow : Flow}
    (hcommand : ∀ condition target, ¬ shader.CommandAt machine.ip (.jump condition target))
    (hboundary : Boundary shader.code machine.ip) (hword : shader.code[machine.ip]? = some word)
    (h : machine.step renderer shader word = .ok (flow, next)) (hflow : flow ≠ .halt) :
    Boundary shader.code next.ip := by
  obtain ⟨instruction, command, last, hinstruction, hdecode, hperform, hmoved⟩ := step_eq_ok.mp h
  have hjump : ∀ condition target, command ≠ .jump condition target := by
    rintro condition target rfl
    exact hcommand condition target ⟨word, instruction, hword, hinstruction, hdecode⟩
  obtain rfl := (flow_of_ne_jump hjump (perform_eq_ok.mp hperform)).resolve_right hflow
  obtain ⟨size, hsize, hnext⟩ := bind_eq_ok.mp hmoved
  obtain rfl := pure_eq_ok.mp hnext
  exact hboundary.next hword hinstruction hsize

theorem run_cut {turns : Nat} {outcome : Outcome} (hi : i < points)
    (hconstants : Value.AllOver points shader.constants) (hpointwise : shader.IsPointwise)
    (hover : machine.Over points) (hboundary : Boundary shader.code machine.ip)
    (hfloats : CallsPassFloats renderer shader machine)
    (h : run renderer shader turns machine = (outcome, last))
    (hfault : ∀ fault, outcome ≠ .failed (.fault fault)) :
    run renderer (shader.cut i) turns (machine.cut i) = (outcome, last.cut i) ∧
      last.Over points := by
  induction turns generalizing machine with
  | zero =>
    obtain ⟨rfl, rfl⟩ := Prod.mk.inj h
    exact ⟨rfl, hover⟩
  | succ turns ih =>
    -- the cut finds the same word and reaches the same limits, so it ends where the whole does
    have hcode : (shader.cut i).code[(machine.cut i).ip]? = shader.code[machine.ip]? := rfl
    have hlimit : (machine.cut i).reachedLimit? = machine.reachedLimit? := rfl
    rw [run] at h ⊢
    cases hword : shader.code[machine.ip]? with
    | none =>
      simp only [turn, hword, Prod.mk.injEq] at h
      obtain ⟨rfl, rfl⟩ := h
      simp only [turn, hcode, hword]
      exact ⟨trivial, hover⟩
    | some word =>
      cases hreached : machine.reachedLimit? with
      | some limit =>
        simp only [turn, hword, hreached, Prod.mk.injEq] at h
        obtain ⟨rfl, rfl⟩ := h
        simp only [turn, hcode, hword, hlimit, hreached]
        exact ⟨trivial, hover⟩
      | none =>
        cases hstep : machine.step renderer shader word with
        | error fault =>
          -- what faults over all points need not do so at one of them
          simp only [turn, hword, hreached, hstep, Prod.mk.injEq] at h
          exact absurd h.1.symm (hfault fault)
        | ok result =>
          obtain ⟨flow, next⟩ := result
          have hcut := step_cut hi hover hconstants hword (fun command hcommand =>
            ⟨hpointwise _ _ hboundary hcommand, hfloats _ _ .start hcommand⟩) hstep
          have hnext := hover.step hconstants hword (fun name hcommand => by
            cases hpointwise _ _ hboundary hcommand) hstep
          by_cases hhalt : flow = .halt
          · subst hhalt
            simp only [turn, hword, hreached, hstep, Prod.mk.injEq] at h
            obtain ⟨rfl, rfl⟩ := h
            simp only [turn, hcode, hword, hlimit, hreached, hcut]
            exact ⟨trivial, hnext⟩
          · have hturn := turn_eq_on.mpr ⟨word, flow, hword, hreached, hstep, hhalt⟩
            have hturn' : turn renderer (shader.cut i) (machine.cut i) = .on (next.cut i) :=
              turn_eq_on.mpr ⟨word, flow, hword, hreached, hcut, hhalt⟩
            rw [hturn] at h
            rw [hturn']
            have hjump : ∀ condition target,
                ¬ shader.CommandAt machine.ip (.jump condition target) := by
              intro condition target hcommand
              cases hpointwise _ _ hboundary hcommand
            exact ih hnext (boundary_of_step hjump hboundary hword hstep hhalt)
              (fun machine command hreaches => hfloats machine command (.head hturn hreaches)) h

end Machine

/-! ### Loading -/

theorem Value.IsLiteral.over {value : Value} (h : value.IsLiteral) : value.Over points :=
  ⟨.inr (by rw [h.size_eq, h.storage_eq]; rfl), by rw [h.size_floats, h.size_eq, Nat.mul_one]⟩

section Declared

variable {shader : Shader} (h : Declared shader.name shader.constants shader.symbols)

include h

theorem Declared.allOver : Value.AllOver points shader.constants :=
  fun _ value hvalue => (h.isLiteral value (Array.mem_of_getElem? hvalue)).over

/-- The constants of a shader are the same at every point. -/
theorem Declared.cut_eq : shader.cut i = shader := by
  have hconstants : shader.constants.map (Value.cut · i) = shader.constants.map id :=
    Array.map_congr_left fun value hvalue => Value.cut_uniform (h.isLiteral value hvalue).storage_eq
  rw [Shader.cut, hconstants, Array.map_id]

end Declared

namespace Symbol

variable {symbol : Symbol} {value : Value}

theorem initialValue_over (hdefault : ∀ value, symbol.default = some value → value.IsLiteral)
    (h : symbol.initialValue points = .ok value) : value.Over points := by
  unfold initialValue at h
  split at h
  next literal hsome =>
    have hliteral := hdefault literal hsome
    split at h
    · exact Value.broadcast_over hliteral.storage_eq h
    · exact Except.ok.inj h ▸ hliteral.over
  next => exact Value.allocate_over h

theorem initialValue_cut (hi : i < points)
    (hdefault : ∀ value, symbol.default = some value → value.IsLiteral)
    (h : symbol.initialValue points = .ok value) : symbol.initialValue 1 = .ok (value.cut i) := by
  unfold initialValue at h ⊢
  cases hsome : symbol.default with
  | none =>
    rw [hsome] at h
    exact Value.allocate_cut hi h
  | some literal =>
    rw [hsome] at h
    have hstorage := (hdefault literal hsome).storage_eq
    dsimp only at h ⊢
    split at h
    next hvarying =>
      rw [if_pos hvarying]
      exact Value.broadcast_cut hstorage hi h
    next hvarying =>
      obtain rfl := Except.ok.inj h
      rw [if_neg hvarying, Value.cut_uniform hstorage]

theorem loadedValue_over {bound : Option Value}
    (hdefault : ∀ value, symbol.default = some value → value.IsLiteral)
    (hbound : ∀ value, bound = some value → value.Over points)
    (h : symbol.loadedValue points bound = .ok value) : value.Over points := by
  unfold loadedValue at h
  split at h
  next given =>
    split at h
    next huniform =>
      have hstorage : given.storage = .uniform := by simpa [Value.isUniform] using huniform.2
      exact Value.broadcast_over hstorage h
    next => exact Except.ok.inj h ▸ hbound given rfl
  next => exact initialValue_over hdefault h

theorem loadedValue_cut {bound : Option Value} (hi : i < points)
    (hdefault : ∀ value, symbol.default = some value → value.IsLiteral)
    (h : symbol.loadedValue points bound = .ok value) :
    symbol.loadedValue 1 (bound.map (Value.cut · i)) = .ok (value.cut i) := by
  cases bound with
  | none => exact initialValue_cut hi hdefault h
  | some given =>
    rw [Option.map_some]
    unfold loadedValue at h ⊢
    have hsame : (given.cut i).isUniform = given.isUniform := by
      rw [Value.isUniform, Value.cut_storage, Value.isUniform]
    dsimp only at h ⊢
    rw [hsame]
    split at h
    next huniform =>
      have hstorage : given.storage = .uniform := by simpa [Value.isUniform] using huniform.2
      rw [if_pos huniform, Value.cut_uniform hstorage]
      exact Value.broadcast_cut hstorage hi h
    next huniform =>
      obtain rfl := Except.ok.inj h
      rw [if_neg huniform]

end Symbol

theorem boundValue?_cut {grid : Grid} {symbol : Symbol} :
    Shader.boundValue? (grid.cut i) symbol
      = (Shader.boundValue? grid symbol).map (Value.cut · i) := by
  unfold Shader.boundValue?
  rw [Grid.cut_value?]
  split <;> rfl

theorem boundValue?_over {grid : Grid} {symbol : Symbol} {value : Value} (hgrid : grid.IsValid)
    (h : Shader.boundValue? grid symbol = some value) : value.Over (grid.width * grid.height) := by
  unfold Shader.boundValue? at h
  split at h
  · obtain ⟨hsize, hfloats⟩ := hgrid _ value h
    exact ⟨.inr hsize, hfloats⟩
  · cases h

namespace Machine

variable {σ : Type} {renderer : Renderer σ} {shader : Shader} {machine loaded first : Machine σ}
  {grid : Grid}

theorem load_eq_ok : load shader grid machine = .ok loaded ↔
    grid.width * grid.height < UInt64.size ∧ ∃ symbols,
      shader.symbols.symbols.mapM (fun symbol =>
        symbol.loadedValue (grid.width * grid.height) (Shader.boundValue? grid symbol))
          = .ok symbols ∧
      loaded = { machine with
        width := grid.width
        height := grid.height
        registers := { machine.registers with symbols := symbols }
        bound := shader.symbols.symbols.map fun symbol =>
          (Shader.boundValue? grid symbol).isSome } := by
  unfold load Grid.points
  simp only [bind_eq_ok, countPoints_eq_ok, pure_eq_ok]
  constructor
  · rintro ⟨_, ⟨hpoints, rfl⟩, symbols, hsymbols, rfl⟩
    exact ⟨hpoints, symbols, hsymbols, rfl⟩
  · rintro ⟨hpoints, symbols, hsymbols, rfl⟩
    exact ⟨_, ⟨hpoints, rfl⟩, symbols, hsymbols, rfl⟩

theorem ready_eq_ok : machine.ready shader = .ok first ↔
    machine.points < 0x8000000000000000 ∧
    ∃ cleared registers, machine.registers.clearTemporaries 0 = .ok cleared ∧
      cleared.clearTemporaries shader.temporaries = .ok registers ∧
      first = { machine with
        ip := 0
        executed := 0
        masks := MaskStack.base machine.points
        registers := registers } := by
  unfold ready reset MaskStack.reset MaskStack.new
  simp only [bind_eq_ok, requireRoom_eq_ok, pure_eq_ok, Nat.one_mul]
  constructor
  · rintro ⟨_, ⟨_, ⟨_, hroom, rfl⟩, cleared, hcleared, rfl⟩, registers, hregisters, rfl⟩
    exact ⟨hroom, cleared, registers, hcleared, hregisters, rfl⟩
  · rintro ⟨hroom, cleared, registers, hcleared, hregisters, rfl⟩
    exact ⟨_, ⟨_, ⟨(), hroom, rfl⟩, cleared, hcleared, rfl⟩, registers, hregisters, rfl⟩

/-- Loading a valid grid and getting ready. -/
theorem start_over (hgrid : grid.IsValid)
    (hdeclared : Declared shader.name shader.constants shader.symbols)
    (hload : load shader grid machine = .ok loaded) (hready : loaded.ready shader = .ok first) :
    loaded.registers.symbols.size = shader.symbols.size ∧
      first.Over (grid.width * grid.height) ∧ first.ip = 0 := by
  obtain ⟨-, symbols, hsymbols, rfl⟩ := load_eq_ok.mp hload
  obtain ⟨hsize, hsymbols⟩ := array_mapM_eq_ok.mp hsymbols
  obtain ⟨-, cleared, registers, hcleared, hregisters, rfl⟩ := ready_eq_ok.mp hready
  have hallover : Value.AllOver (grid.width * grid.height) symbols := by
    intro n value hvalue
    have hlt : n < shader.symbols.symbols.size := by
      rw [hsize]
      exact (Array.getElem?_eq_some_iff.mp hvalue).1
    obtain ⟨value', hvalue', hloaded⟩ := hsymbols n _ (Array.getElem?_eq_getElem hlt)
    obtain rfl := Option.some.inj (hvalue.symm.trans hvalue')
    have hdefault := (hdeclared.isDeclared _ (Array.getElem_mem hlt)).default_isLiteral
    exact Symbol.loadedValue_over (fun value hvalue => (hdefault value hvalue).1)
      (fun value hvalue => boundValue?_over hgrid hvalue) hloaded
  obtain ⟨-, rfl⟩ := Registers.clearTemporaries_eq_ok.mp hcleared
  obtain ⟨-, rfl⟩ := Registers.clearTemporaries_eq_ok.mp hregisters
  exact ⟨hsize.symm, ⟨rfl, MaskStack.over_base, ⟨hallover, Registers.allOver_replicate_empty⟩⟩, rfl⟩

/-- Loading a grid and getting ready, at a single point. -/
theorem start_cut (hdeclared : Declared shader.name shader.constants shader.symbols)
    (hi : i < grid.width * grid.height) (hload : load shader grid machine = .ok loaded)
    (hready : loaded.ready shader = .ok first) :
    ∃ single, load shader (grid.cut i) machine = .ok single ∧
      single.registers.symbols.size = shader.symbols.size ∧
      single.ready shader = .ok (first.cut i) := by
  obtain ⟨-, symbols, hsymbols, rfl⟩ := load_eq_ok.mp hload
  obtain ⟨hsize, hsymbols⟩ := array_mapM_eq_ok.mp hsymbols
  obtain ⟨-, cleared, registers, hcleared, hregisters, rfl⟩ := ready_eq_ok.mp hready
  obtain ⟨hroom, rfl⟩ := Registers.clearTemporaries_eq_ok.mp hcleared
  obtain ⟨hroom', rfl⟩ := Registers.clearTemporaries_eq_ok.mp hregisters
  refine ⟨_, load_eq_ok.mpr ⟨show 1 * 1 < UInt64.size by decide, symbols.map (Value.cut · i),
    array_mapM_eq_ok.mpr ⟨by simpa using hsize, fun n symbol hsymbol => ?_⟩, rfl⟩, ?_,
    ready_eq_ok.mpr ⟨show 1 * 1 < 0x8000000000000000 by decide, _, _,
      Registers.clearTemporaries_eq_ok.mpr ⟨hroom, rfl⟩,
      Registers.clearTemporaries_eq_ok.mpr ⟨hroom', rfl⟩, ?_⟩⟩
  · obtain ⟨value, hvalue, hloaded⟩ := hsymbols n symbol hsymbol
    have hdefault := (hdeclared.isDeclared symbol (Array.mem_of_getElem? hsymbol)).default_isLiteral
    rw [boundValue?_cut]
    exact ⟨value.cut i, by simp [hvalue],
      Symbol.loadedValue_cut hi (fun value hvalue => (hdefault value hvalue).1) hloaded⟩
  · simpa [SymbolTable.size] using hsize.symm
  · have hbound : ∀ symbol, (Shader.boundValue? (grid.cut i) symbol).isSome
        = (Shader.boundValue? grid symbol).isSome := by
      intro symbol
      rw [boundValue?_cut, Option.isSome_map]
    have hwidth : (grid.cut i).width = 1 := rfl
    have hheight : (grid.cut i).height = 1 := rfl
    simp [cut, points, hbound, hwidth, hheight, MaskStack.cut_base hi, Registers.cut]

end Machine

/-! ### Storing -/

namespace Grid

variable {grid : Grid} {name : String} {value : Value}

theorem insert_eq (hpoints : grid.width * grid.height < UInt64.size) :
    grid.insert name value =
      if value.size = value.storage.size (grid.width * grid.height) then .ok (grid.bind name value)
      else .error (.error (.sizeMismatch name (value.storage.size (grid.width * grid.height))
        value.size)) := by
  have hcount : grid.points = .ok (grid.width * grid.height) :=
    countPoints_eq_ok.mpr ⟨hpoints, rfl⟩
  unfold insert
  rw [hcount]
  rfl

/-- Binding a value, at a single point. -/
theorem insert_cut (hpoints : grid.width * grid.height < UInt64.size)
    (hvalue : value.Over (grid.width * grid.height)) :
    (grid.cut i).insert name (value.cut i) = (grid.insert name value).map (Grid.cut · i) := by
  have hone : (grid.cut i).width * (grid.cut i).height < UInt64.size :=
    show 1 * 1 < UInt64.size by decide
  rw [insert_eq hpoints, insert_eq hone]
  obtain hstorage | hstorage := value.storage.uniform_or_varying
  · rw [Value.cut_uniform hstorage, hstorage]
    have huniform : ∀ points, Storage.uniform.size points = 1 := fun _ => rfl
    rw [huniform, huniform]
    by_cases hsize : value.size = 1
    · rw [if_pos hsize, if_pos hsize, Except.map, cut_bind, Value.cut_uniform hstorage]
    · rw [if_neg hsize, if_neg hsize]
      rfl
  · rw [if_pos (by rw [Value.cut_varying hstorage, hstorage]; rfl),
      if_pos (by rw [hvalue.size_of_varying hstorage, hstorage]; rfl), Except.map, cut_bind]

end Grid

namespace Shader

variable {shader : Shader} {grid : Grid}

theorem unbind_cut : (shader.unbind grid).cut i = shader.unbind (grid.cut i) := by
  unfold unbind
  induction shader.symbols.symbols.toList.filter Symbol.isBindable generalizing grid with
  | nil => rfl
  | cons symbol symbols ih => rw [List.foldl_cons, List.foldl_cons, ih, Grid.cut_erase]

theorem unbind_dimensions :
    (shader.unbind grid).width = grid.width ∧ (shader.unbind grid).height = grid.height := by
  unfold unbind
  induction shader.symbols.symbols.toList.filter Symbol.isBindable generalizing grid with
  | nil => exact ⟨rfl, rfl⟩
  | cons symbol symbols ih => exact ih

theorem validate_cut : shader.validate (grid.cut i) = shader.validate grid := by
  unfold validate
  congr 1
  funext symbol
  rw [Grid.cut_value?]
  cases symbol.isBindable with
  | false => rfl
  | true =>
    cases grid.value? symbol.name with
    | none => rfl
    | some value => simp [Symbol.checkBinding, Value.isVarying]

end Shader

/-- The outcome, if all that it left could be stored. -/
def Outcome.orFailure (outcome : Outcome) : Progress → Outcome
  | .ok () => outcome
  | .error failure => .failed failure

namespace Machine

variable {σ : Type} {renderer : Renderer σ} {shader : Shader} {machine last : Machine σ}
  {grid after : Grid} {progress : Progress}

/-- Storing symbols, at a single point. -/
theorem storeSymbols_cut {symbols : List Symbol} {slot : Nat}
    (hpoints : grid.width * grid.height < UInt64.size)
    (hover : Value.AllOver (grid.width * grid.height) machine.registers.symbols)
    (h : storeSymbols symbols slot grid machine = (progress, last, after)) :
    storeSymbols symbols slot (grid.cut i) (machine.cut i) = (progress, last.cut i, after.cut i) := by
  induction symbols generalizing slot grid machine with
  | nil =>
    obtain ⟨rfl, rfl, rfl⟩ := by simpa [storeSymbols] using h
    rfl
  | cons symbol symbols ih =>
    have hbound : (machine.cut i).bound = machine.bound := rfl
    have hfetch : fetch (machine.cut i).registers.symbols slot
        = (fetch machine.registers.symbols slot).map (Value.cut · i) := fetch_map
    rw [storeSymbols] at h ⊢
    rw [hbound]
    split at h
    next hstored =>
      rw [if_pos hstored, hfetch]
      cases hvalue : fetch machine.registers.symbols slot with
      | error fault =>
        rw [hvalue] at h
        obtain ⟨rfl, rfl, rfl⟩ : .error (.fault fault) = progress ∧ machine = last ∧ grid = after := by
          simpa using h
        rfl
      | ok value =>
        have hvalueover := hover slot value (fetch_eq_ok.mp hvalue)
        -- a register is emptied when its value is stored, and so is its cut
        have hemptied : ((machine.cut i).registers.symbols).setIfInBounds slot Value.empty
            = (machine.registers.symbols.setIfInBounds slot Value.empty).map (Value.cut · i) := by
          rw [Array.map_setIfInBounds, Value.cut_empty]
          rfl
        rw [hvalue] at h
        dsimp only [Except.map] at h ⊢
        rw [Grid.insert_cut hpoints hvalueover, hemptied]
        cases hinsert : grid.insert symbol.name value with
        | error failure =>
          rw [hinsert] at h
          obtain ⟨rfl, rfl, rfl⟩ := by simpa using h
          rfl
        | ok stored =>
          rw [hinsert] at h
          have hdimensions : stored.width * stored.height = grid.width * grid.height := by
            rw [Grid.insert_eq hpoints] at hinsert
            split at hinsert
            · obtain rfl := Except.ok.inj hinsert
              rfl
            · cases hinsert
          exact ih (by rw [hdimensions]; exact hpoints)
            (by rw [hdimensions]; exact hover.set Value.over_empty) h
    next hstored =>
      rw [if_neg hstored]
      exact ih hpoints hover h

theorem execute_eq {turns : Nat} {first : Machine σ}
    (hsize : machine.registers.symbols.size = shader.symbols.size)
    (hready : machine.ready shader = .ok first) :
    execute renderer shader turns machine = run renderer shader turns first := by
  rw [execute, if_pos hsize, hready]

/-- What shading in place makes of a grid, emptied of what was loaded, once the run has ended. -/
def settle (shader : Shader) (grid : Grid) : Outcome × Machine σ → Outcome × Machine σ × Grid
  | (.failed (.fault fault), machine) => (.failed (.fault fault), machine, grid)
  | (.unfinished, machine) => (.unfinished, machine, grid)
  | (outcome, machine) =>
    match store shader grid machine with
    | (.ok (), stored) => (outcome, stored)
    | (.error failure, stored) => (.failed failure, stored)

/-- Either what a run left is stored, or the grid stays as it is. -/
theorem settle_cases (shader : Shader) (outcome : Outcome) :
    ((∀ fault, outcome ≠ .failed (.fault fault)) ∧ ∀ (grid : Grid) (machine : Machine σ),
      settle shader grid (outcome, machine) =
        (outcome.orFailure (store shader grid machine).1, (store shader grid machine).2)) ∨
    ∀ (grid : Grid) (machine : Machine σ),
      settle shader grid (outcome, machine) = (outcome, machine, grid) := by
  cases outcome with
  | unfinished => exact .inr fun _ _ => rfl
  | finished =>
    refine .inl ⟨by simp, fun grid machine => ?_⟩
    rcases hstore : store shader grid machine with ⟨progress, stored⟩
    cases progress <;> simp only [settle, hstore, Outcome.orFailure]
  | failed failure =>
    cases failure with
    | fault fault => exact .inr fun _ _ => rfl
    | error error =>
      refine .inl ⟨by simp, fun grid machine => ?_⟩
      rcases hstore : store shader grid machine with ⟨progress, stored⟩
      cases progress <;> simp only [settle, hstore, Outcome.orFailure]

theorem shadeInPlace_eq {turns : Nat} {loaded : Machine σ} (hvalid : shader.validate grid = .ok ())
    (hload : load shader grid machine = .ok loaded) :
    shadeInPlace renderer shader turns grid machine
      = settle shader (shader.unbind grid) (execute renderer shader turns loaded) := by
  rw [shadeInPlace, hvalid, hload]
  rfl

/-- Shading in place that gets past the checks is a run that got started. -/
theorem shadeInPlace_starts {turns : Nat} {outcome : Outcome}
    (h : shadeInPlace renderer shader turns grid machine = (outcome, last, after))
    (hfault : ∀ fault, outcome ≠ .failed (.fault fault)) (hvalid : shader.validate grid = .ok ()) :
    ∃ loaded first, load shader grid machine = .ok loaded ∧ loaded.ready shader = .ok first := by
  rw [shadeInPlace, hvalid] at h
  cases hload : load shader grid machine with
  | error fault =>
    rw [hload] at h
    exact absurd (Prod.mk.inj h).1.symm (hfault fault)
  | ok loaded =>
    rw [hload] at h
    cases hready : loaded.ready shader with
    | ok first => exact ⟨loaded, first, rfl, hready⟩
    | error fault =>
      -- without a start there is nothing but a fault, whether or not the symbols are loaded
      have hexecute : ∃ fault, execute renderer shader turns loaded
          = (.failed (.fault fault), loaded) := by
        rw [execute, hready]
        split
        · exact ⟨fault, rfl⟩
        · exact ⟨.notLoaded shader.name, rfl⟩
      obtain ⟨fault, hexecute⟩ := hexecute
      dsimp only at h
      rw [hexecute] at h
      exact absurd (Prod.mk.inj h).1.symm (hfault fault)

/-- Settling a grid, at a single point. -/
theorem settle_cut {ended outcome : Outcome} {ran : Machine σ}
    (hpoints : grid.width * grid.height < UInt64.size) (hover : ran.Over (grid.width * grid.height))
    (h : settle shader grid (ended, ran) = (outcome, last, after)) :
    settle shader (grid.cut i) (ended, ran.cut i) = (outcome, last.cut i, after.cut i) := by
  obtain ⟨-, hsettle⟩ | hsettle := settle_cases shader ended
  · rcases hstore : store shader grid ran with ⟨progress, stored, stores⟩
    have hcut : store shader (grid.cut i) (ran.cut i) = (progress, stored.cut i, stores.cut i) :=
      storeSymbols_cut hpoints hover.registers.symbols hstore
    rw [hsettle, hstore] at h
    obtain ⟨rfl, rfl, rfl⟩ := by simpa using h
    rw [hsettle, hcut]
  · rw [hsettle] at h
    obtain ⟨rfl, rfl, rfl⟩ := by simpa using h
    rw [hsettle]

/-- Shading a grid in place, at a single point. -/
theorem shadeInPlace_cut {turns : Nat} {outcome : Outcome}
    (hdeclared : Declared shader.name shader.constants shader.symbols)
    (hpointwise : shader.IsPointwise) (hgrid : grid.IsValid) (hi : i < grid.width * grid.height)
    (hfloats : ∀ loaded first, load shader grid machine = .ok loaded →
      loaded.ready shader = .ok first → CallsPassFloats renderer shader first)
    (h : shadeInPlace renderer shader turns grid machine = (outcome, last, after))
    (hfault : ∀ fault, outcome ≠ .failed (.fault fault)) :
    ∃ single, shadeInPlace renderer shader turns (grid.cut i) machine
        = (outcome, single, after.cut i) ∧ single.executed = last.executed := by
  cases hvalid : shader.validate grid with
  | error error =>
    rw [shadeInPlace, hvalid] at h
    obtain ⟨rfl, rfl, rfl⟩ := by simpa using h
    refine ⟨machine, ?_, rfl⟩
    rw [shadeInPlace, Shader.validate_cut, hvalid]
  | ok _ =>
    obtain ⟨loaded, first, hload, hready⟩ := shadeInPlace_starts h hfault hvalid
    obtain ⟨hsize, hover, hip⟩ := start_over hgrid hdeclared hload hready
    obtain ⟨single, hsingle, hsize', hready'⟩ := start_cut hdeclared hi hload hready
    rw [shadeInPlace_eq hvalid hload, execute_eq hsize hready] at h
    rw [shadeInPlace_eq (Shader.validate_cut.trans hvalid) hsingle, execute_eq hsize' hready',
      ← Shader.unbind_cut]
    cases hrun : run renderer shader turns first with
    | mk ended ran =>
      rw [hrun] at h
      have hended : ∀ fault, ended ≠ .failed (.fault fault) := by
        rintro fault rfl
        exact absurd (Prod.mk.inj h).1.symm (hfault fault)
      obtain ⟨hcut, hran⟩ := run_cut hi hdeclared.allOver hpointwise hover (hip ▸ .first)
        (hfloats loaded first hload hready) hrun hended
      rw [hdeclared.cut_eq] at hcut
      have hdimensions : (shader.unbind grid).width * (shader.unbind grid).height
          = grid.width * grid.height := by
        rw [Shader.unbind_dimensions.1, Shader.unbind_dimensions.2]
      rw [hcut]
      refine ⟨last.cut i, settle_cut ?_ ?_ h, rfl⟩
      · rw [hdimensions]
        exact (load_eq_ok.mp hload).1
      · rw [hdimensions]
        exact hran

/-- **Lockstep.**  Let a text describe a shader whose code neither jumps nor looks at neighbours, and
    let it pass floats wherever a builtin reads floats.  Shading a grid in place, unless it faults, has
    the outcome of shading the grid cut down to any of its points, takes as many instructions, and
    leaves there what the cut grid is left with. -/
theorem lockstep {text : String} {turns : Nat} {outcome : Outcome}
    (hassemble : assemble text = .ok shader) (hpointwise : shader.IsPointwise)
    (hgrid : grid.IsValid) (hi : i < grid.width * grid.height)
    (hfloats : ∀ loaded first, load shader grid machine = .ok loaded →
      loaded.ready shader = .ok first → CallsPassFloats renderer shader first)
    (h : shadeInPlace renderer shader turns grid machine = (outcome, last, after))
    (hfault : ∀ fault, outcome ≠ .failed (.fault fault)) :
    ∃ single, shadeInPlace renderer shader turns (grid.cut i) machine
        = (outcome, single, after.cut i) ∧ single.executed = last.executed :=
  shadeInPlace_cut (assemble_declared hassemble) hpointwise hgrid hi hfloats h hfault

/-- A shader that doubles its only symbol where it is not zero. -/
def doubleWhereSet : Shader where
  kind := .surface
  name := "main"
  code := #[4, 0x40000000, 0x212118, 0x40000000, 0x40000000, 3]
  constants := #[]
  symbols := ⟨#[⟨"x", .global, .float, .varying, none⟩]⟩
  temporaries := 0

theorem commandAt_doubleWhereSet {ip : Nat} {command : Command}
    (h : doubleWhereSet.CommandAt ip command) :
    command.isPointwise = true ∧
      ∀ machine : Machine Unit, machine.PassesFloats doubleWhereSet.constants command := by
  obtain ⟨word, instruction, hword, hinstruction, hcommand⟩ := h
  have hip : ip < 6 := (Array.getElem?_eq_some_iff.mp hword).1
  match ip with
  | 0 | 2 | 5 =>
    obtain rfl := Option.some.inj hword
    obtain rfl := Except.ok.inj hinstruction
    obtain rfl := Except.ok.inj hcommand
    exact ⟨rfl, fun _ => trivial⟩
  | 1 | 3 | 4 =>
    obtain rfl := Option.some.inj hword
    cases hinstruction

/-- A grid of two points, at the first of which the symbol is zero. -/
def twoPoints : Grid := ⟨2, 1, ⟨[("x", .varyingFloat #[0, 3])]⟩⟩

theorem twoPoints_isValid : twoPoints.IsValid := by
  intro name value hvalue
  by_cases hname : "x" = name
  · obtain rfl : Value.varyingFloat #[0, 3] = value := by
      simpa [twoPoints, Grid.value?, NameMap.find?, NameMap.findIn, hname] using hvalue
    exact ⟨rfl, rfl⟩
  · simp [twoPoints, Grid.value?, NameMap.find?, NameMap.findIn, hname] at hvalue

/-- A machine that has not run. -/
def idle : Machine Unit where
  config := {}
  ip := 0
  width := 0
  height := 0
  masks := MaskStack.base 0
  registers := ⟨#[], #[]⟩
  bound := #[]
  executed := 0
  world := ()

theorem lockstep_doubleWhereSet :
    (shadeInPlace (.ofScene .still) doubleWhereSet 10 twoPoints idle).1 = .finished ∧
      ∃ single, shadeInPlace (.ofScene .still) doubleWhereSet 10 (twoPoints.cut 1) idle
          = (.finished, single,
            (shadeInPlace (.ofScene .still) doubleWhereSet 10 twoPoints idle).2.2.cut 1) ∧
        single.executed
          = (shadeInPlace (.ofScene .still) doubleWhereSet 10 twoPoints idle).2.1.executed := by
  have hassemble : assemble ".global varying float x
generate_mask @x
add_assign.v1v1 @x, @x
clear_mask" = .ok doubleWhereSet := by
    with_unfolding_all rfl
  have hfinished : (shadeInPlace (.ofScene .still) doubleWhereSet 10 twoPoints idle).1
      = .finished := by
    decide +kernel
  refine ⟨hfinished, lockstep hassemble (fun ip command _ h => (commandAt_doubleWhereSet h).1)
    twoPoints_isValid (by decide) (fun _ _ _ _ machine command _ h =>
      (commandAt_doubleWhereSet h).2 machine) (Prod.ext hfinished rfl) (by simp)⟩

end Machine

end Shading
