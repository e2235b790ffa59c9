import Shading.Proofs.Bindings
import Shading.Proofs.Checks
import Shading.Proofs.Reframe
import Shading.Proofs.Reuse

namespace Shading

/-!
# Preparing a grid changes nothing but unbound parameters

Preparing a grid binds the globals and parameters that it lacks.  Shading loads the same values for
them, so the grid as it was and the grid as prepared are shaded alike.  They differ in what is stored:
a parameter that the grid does not bind is stored only if the grid was prepared.

* `Shader.Prepares`, `Shader.Attempts` — what preparing a grid comes to;
* `Machine.rebind` — a machine that stores other symbols, and runs as before;
* `Machine.PreparedAlike` — what shading the two grids has in common.
-/

variable {points : Nat}

/-! ### Preparing -/

/-- The initial value of a declared symbol exists, if there is room for it. -/
theorem Symbol.initialValue_faultsOnly {symbol : Symbol} (hdeclared : symbol.IsDeclared) :
    FaultsOnly (fun fault => fault = .tooLarge ∧ 0x8000000000000000 ≤ 64 * points)
      (symbol.initialValue points) := by
  have hroom : ∀ (type : ElementType) count, count ≤ points ∨ count = 1 →
      FaultsOnly (fun fault => fault = .tooLarge ∧ 0x8000000000000000 ≤ 64 * points)
        (requireRoom 4 (type.components * count)) := by
    intro type count hcount
    have hle := Value.components_le type
    unfold requireRoom
    split
    · exact faultsOnly_ok
    next hlarge =>
      have hmul : type.components * count ≤ 16 * count := Nat.mul_le_mul_right _ hle
      exact faultsOnly_error.mpr ⟨rfl, by omega⟩
  unfold initialValue
  split
  next literal hsome =>
    have hliteral := (hdeclared.default_isLiteral literal hsome).1
    split
    · unfold Value.broadcast
      rw [hliteral.storage_eq]
      refine faultsOnly_bind.mpr ⟨hroom _ _ (.inl (Nat.le_refl points)), fun _ _ =>
        faultsOnly_bind.mpr ⟨?_, fun _ _ => faultsOnly_pure⟩⟩
      refine faultsOnly_tabulate fun k hk => faultsOnly_fetch (.inr ?_)
      rw [hliteral.size_floats]
      exact Nat.mod_lt _ (Nat.pos_of_mul_pos_right (Nat.lt_of_le_of_lt (Nat.zero_le k) hk))
    · exact faultsOnly_ok
  next =>
    unfold Value.allocate
    refine faultsOnly_bind.mpr ⟨hroom _ _ ?_, fun _ _ => faultsOnly_pure⟩
    cases symbol.storage with
    | uniform => exact .inr rfl
    | varying => exact .inl (Nat.le_refl points)

namespace Shader

variable {grid next prepared : Grid} {symbol : Symbol} {symbols : List Symbol}
  {result : Progress × Grid}

/-- The check of what a grid binds to a symbol. -/
def checkBound (grid : Grid) (symbol : Symbol) : Except MachineError Unit :=
  match symbol.isBindable, grid.value? symbol.name with
  | true, some value => symbol.checkBinding value
  | _, _ => .ok ()

theorem bindInitial_eq (hpoints : grid.width * grid.height < UInt64.size) :
    bindInitial symbol grid = (do
      let value ← liftM (symbol.initialValue (grid.width * grid.height))
      grid.insert symbol.name value) := by
  unfold bindInitial Grid.points countPoints
  rw [if_pos hpoints]
  rfl

/-- Binding a symbol to its initial value succeeds, or there is no room for it. -/
theorem bindInitial_cases (hdeclared : symbol.IsDeclared) :
    (∃ value, symbol.initialValue (grid.width * grid.height) = .ok value ∧
      bindInitial symbol grid = .ok (grid.bind symbol.name value)) ∨
    bindInitial symbol grid = .error (.fault .tooLarge) ∧
      0x8000000000000000 ≤ 64 * (grid.width * grid.height) := by
  by_cases hpoints : grid.width * grid.height < UInt64.size
  · rw [bindInitial_eq hpoints]
    cases hvalue : symbol.initialValue (grid.width * grid.height) with
    | error fault =>
      obtain ⟨rfl, hlarge⟩ := Symbol.initialValue_faultsOnly hdeclared fault hvalue
      exact .inr ⟨rfl, hlarge⟩
    | ok value =>
      have hholds := Symbol.initialValue_holds hdeclared hvalue
      refine .inl ⟨value, rfl, ?_⟩
      exact Grid.insert_eq_ok.mpr ⟨hpoints, by rw [hholds.size_eq, hholds.storage_eq], rfl⟩
  · unfold bindInitial Grid.points countPoints
    rw [if_neg hpoints]
    refine .inr ⟨rfl, ?_⟩
    have hsize : UInt64.size = 0x10000000000000000 := rfl
    omega

/-- A grid that binds what another one does, and those globals and parameters among the symbols that
    the other one lacks to their initial values. -/
structure Prepares (symbols : List Symbol) (grid prepared : Grid) : Prop where
  width_eq : prepared.width = grid.width
  height_eq : prepared.height = grid.height
  keeps : ∀ name value, grid.value? name = some value → prepared.value? name = some value
  initial : ∀ symbol ∈ symbols, symbol.isBindable = true → grid.value? symbol.name = none →
    ∃ value, symbol.initialValue (grid.width * grid.height) = .ok value ∧
      prepared.value? symbol.name = some value
  others : ∀ name, (∀ symbol ∈ symbols, symbol.isBindable = true → symbol.name ≠ name) →
    prepared.value? name = grid.value? name

theorem Prepares.cons (h : Prepares symbols grid prepared)
    (hsymbol : symbol.isBindable = true → grid.value? symbol.name ≠ none) :
    Prepares (symbol :: symbols) grid prepared where
  width_eq := h.width_eq
  height_eq := h.height_eq
  keeps := h.keeps
  initial := by
    intro other hother hbindable hnone
    obtain rfl | hother := List.mem_cons.mp hother
    · exact absurd hnone (hsymbol hbindable)
    · exact h.initial other hother hbindable hnone
  others := fun name hname => h.others name fun other hother =>
    hname other (List.mem_cons_of_mem symbol hother)

theorem Prepares.cons_bind {value : Value} (hnone : grid.value? symbol.name = none)
    (hbindable : symbol.isBindable = true)
    (hvalue : symbol.initialValue (grid.width * grid.height) = .ok value)
    (hname : symbol.name ∉ symbols.map Symbol.name)
    (h : Prepares symbols (grid.bind symbol.name value) prepared) :
    Prepares (symbol :: symbols) grid prepared where
  width_eq := h.width_eq
  height_eq := h.height_eq
  keeps := by
    intro name value' hvalue'
    refine h.keeps name value' ?_
    rw [Grid.value?_bind, if_neg ?_, hvalue']
    rintro rfl
    simp [hnone] at hvalue'
  initial := by
    intro other hother hbindable' hnone'
    obtain rfl | hother := List.mem_cons.mp hother
    · exact ⟨value, hvalue, h.keeps _ value (by rw [Grid.value?_bind, if_pos rfl])⟩
    · refine h.initial other hother hbindable' ?_
      rw [Grid.value?_bind, if_neg ?_, hnone']
      intro heq
      exact hname (heq ▸ List.mem_map_of_mem hother)
  others := by
    intro name hothers
    rw [h.others name fun other hother => hothers other (List.mem_cons_of_mem symbol hother),
      Grid.value?_bind, if_neg (hothers symbol List.mem_cons_self hbindable)]

/-- What an attempt to prepare a grid for symbols comes to. -/
inductive Attempts (symbols : List Symbol) (grid : Grid) : Progress × Grid → Prop
  | prepared {prepared : Grid} (hcheck : symbols.forM (checkBound grid) = .ok ())
      (hprepares : Prepares symbols grid prepared) : Attempts symbols grid (.ok (), prepared)
  | refused {error : MachineError} {rest : Grid}
      (hcheck : symbols.forM (checkBound grid) = .error error) :
      Attempts symbols grid (.error (.error error), rest)
  | tooLarge {rest : Grid} (hlarge : 0x8000000000000000 ≤ 64 * (grid.width * grid.height)) :
      Attempts symbols grid (.error (.fault .tooLarge), rest)

theorem forM_cons (symbol : Symbol) (symbols : List Symbol) :
    (symbol :: symbols).forM (checkBound grid)
      = checkBound grid symbol >>= fun _ => symbols.forM (checkBound grid) := rfl

/-- One symbol more, which is bound and not refused, or has just been bound. -/
theorem Attempts.cons (h : Attempts symbols next result) (hsymbol : checkBound grid symbol = .ok ())
    (hsame : ∀ other ∈ symbols, checkBound next other = checkBound grid other)
    (hdimensions : next.width = grid.width ∧ next.height = grid.height)
    (hprepares : ∀ prepared, Prepares symbols next prepared →
      Prepares (symbol :: symbols) grid prepared) : Attempts (symbol :: symbols) grid result := by
  have hcheck : (symbol :: symbols).forM (checkBound grid) = symbols.forM (checkBound next) := by
    rw [forM_cons, hsymbol, forM_congr hsame]
    rfl
  cases h with
  | prepared h hprepared => exact .prepared (hcheck.trans h) (hprepares _ hprepared)
  | refused h => exact .refused (hcheck.trans h)
  | tooLarge h => exact .tooLarge (hdimensions.1 ▸ hdimensions.2 ▸ h)

/-- **Preparing.**  An attempt to prepare a grid succeeds, or refuses it as validating it does, or finds
    no room. -/
theorem prepareSymbols_attempts (hdeclared : ∀ symbol ∈ symbols, symbol.IsDeclared)
    (hnames : (symbols.map Symbol.name).Nodup) :
    Attempts symbols grid (prepareSymbols symbols grid) := by
  induction symbols generalizing grid with
  | nil => exact .prepared rfl ⟨rfl, rfl, fun _ _ h => h, by simp, fun _ _ => rfl⟩
  | cons symbol symbols ih =>
    obtain ⟨hsymbol, hdeclared⟩ := List.forall_mem_cons.mp hdeclared
    rw [List.map_cons, List.nodup_cons] at hnames
    rw [prepareSymbols]
    cases hbindable : symbol.isBindable with
    | false =>
      rw [if_neg (by simp)]
      exact (ih hdeclared hnames.2).cons (by rw [checkBound, hbindable]) (fun _ _ => rfl) ⟨rfl, rfl⟩
        fun _ h => h.cons (by simp [hbindable])
    | true =>
      rw [if_pos rfl]
      cases hvalue : grid.value? symbol.name with
      | some value =>
        have hcheck : checkBound grid symbol = symbol.checkBinding value := by
          rw [checkBound, hbindable, hvalue]
        dsimp only
        cases hbinding : symbol.checkBinding value with
        | error error =>
          refine .refused ?_
          rw [forM_cons, hcheck, hbinding]
          rfl
        | ok _ =>
          exact (ih hdeclared hnames.2).cons (hcheck.trans hbinding) (fun _ _ => rfl) ⟨rfl, rfl⟩
            fun _ h => h.cons (by simp [hvalue])
      | none =>
        dsimp only
        obtain ⟨value, hinitial, hbind⟩ | ⟨hfault, hlarge⟩ := @bindInitial_cases grid symbol hsymbol
        · rw [hbind]
          have hrest := @ih (grid.bind symbol.name value) hdeclared hnames.2
          refine hrest.cons (by rw [checkBound, hbindable, hvalue]) ?_ ⟨rfl, rfl⟩
            fun _ h => h.cons_bind hvalue hbindable hinitial hnames.1
          -- a value bound for this symbol does not matter to those of other names
          intro other hother
          have hne : symbol.name ≠ other.name := fun heq =>
            hnames.1 (heq ▸ List.mem_map_of_mem hother)
          rw [checkBound, checkBound, Grid.value?_bind, if_neg hne]
        · rw [hfault]
          exact .tooLarge hlarge

section Prepared

variable {shader : Shader} (hdeclared : Declared shader.name shader.constants shader.symbols)

include hdeclared

theorem prepare_attempts (grid : Grid) :
    Attempts shader.symbols.symbols.toList grid (shader.prepare grid) :=
  prepareSymbols_attempts (fun symbol hsymbol =>
    hdeclared.isDeclared symbol (Array.mem_toList_iff.mp hsymbol)) hdeclared.distinct

/-- A grid that could be prepared is not refused. -/
theorem prepares_of_prepare (h : shader.prepare grid = (.ok (), prepared)) :
    shader.validate grid = .ok () ∧ Prepares shader.symbols.symbols.toList grid prepared := by
  have hattempts := prepare_attempts hdeclared grid
  rw [h] at hattempts
  cases hattempts with
  | prepared hcheck hprepares => exact ⟨hcheck, hprepares⟩

variable (h : Prepares shader.symbols.symbols.toList grid prepared)

include h

/-- What a prepared grid binds to a symbol: what it bound before, or the initial value. -/
theorem boundValue?_prepared (hsymbol : symbol ∈ shader.symbols.symbols.toList)
    (hbindable : symbol.isBindable = true) :
    (∃ value, boundValue? grid symbol = some value ∧ boundValue? prepared symbol = some value) ∨
      boundValue? grid symbol = none ∧ ∃ value,
        symbol.initialValue (grid.width * grid.height) = .ok value ∧
        symbol.Holds (grid.width * grid.height) value ∧ boundValue? prepared symbol = some value := by
  unfold boundValue?
  rw [if_pos hbindable, if_pos hbindable]
  cases hvalue : grid.value? symbol.name with
  | some value => exact .inl ⟨value, rfl, h.keeps _ value hvalue⟩
  | none =>
    obtain ⟨value, hinitial, hprepared⟩ := h.initial symbol hsymbol hbindable hvalue
    have hholds := Symbol.initialValue_holds
      (hdeclared.isDeclared symbol (Array.mem_toList_iff.mp hsymbol)) hinitial
    exact .inr ⟨rfl, value, hinitial, hholds, hprepared⟩

/-- A prepared grid loads what the grid loads that it was made of. -/
theorem loadedValue_prepared (hsymbol : symbol ∈ shader.symbols.symbols.toList) :
    symbol.loadedValue (grid.width * grid.height) (boundValue? prepared symbol)
      = symbol.loadedValue (grid.width * grid.height) (boundValue? grid symbol) := by
  cases hbindable : symbol.isBindable with
  | false => simp [boundValue?, hbindable]
  | true =>
    obtain ⟨value, hgrid, hprepared⟩ | ⟨hnone, value, hinitial, hholds, hprepared⟩ :=
      boundValue?_prepared hdeclared h hsymbol hbindable
    · rw [hgrid, hprepared]
    · rw [hnone, hprepared, Symbol.loadedValue, Symbol.loadedValue, hinitial, if_neg]
      rintro ⟨hvarying, huniform⟩
      have hstorage : value.storage = .uniform := by simpa [Value.isUniform] using huniform
      simp [← hholds.storage_eq, hstorage, Storage.isVarying] at hvarying

theorem validate_prepared (hvalid : shader.validate grid = .ok ()) :
    shader.validate prepared = .ok () := by
  refine validate_eq_ok.mpr fun symbol hsymbol value hvalue => ?_
  have hbindable : symbol.isBindable = true := by
    unfold boundValue? at hvalue
    split at hvalue
    next hbindable => exact hbindable
    next => cases hvalue
  obtain ⟨value', hgrid, hprepared⟩ | ⟨-, value', -, hholds, hprepared⟩ :=
    boundValue?_prepared hdeclared h hsymbol hbindable
  · obtain rfl := Option.some.inj (hvalue.symm.trans hprepared)
    exact validate_eq_ok.mp hvalid symbol hsymbol value hgrid
  · obtain rfl := Option.some.inj (hvalue.symm.trans hprepared)
    exact hholds.checkBinding

end Prepared

end Shader

/-! ### Running -/

namespace Machine

variable {σ : Type} {renderer : Renderer σ} {shader : Shader} {machine : Machine σ} {word : Word}
  {bound : Array Bool} {turns : Nat}

/-- The machine with other symbols to be stored because they were read from the grid. -/
def rebind (bound : Array Bool) (machine : Machine σ) : Machine σ := { machine with bound := bound }

theorem step_rebind : (machine.rebind bound).step renderer shader word
    = Prod.map id (rebind bound) <$> machine.step renderer shader word :=
  @step_reframe _ _ _ machine word id fun _ => bound

theorem run_rebind : run renderer shader turns (machine.rebind bound)
    = Prod.map id (rebind bound) (run renderer shader turns machine) := by
  induction turns generalizing machine with
  | zero => rfl
  | succ turns ih =>
    have hip : (machine.rebind bound).ip = machine.ip := rfl
    have hlimit : (machine.rebind bound).reachedLimit? = machine.reachedLimit? := rfl
    rw [run, run, turn, turn, hip, hlimit]
    cases shader.code[machine.ip]? with
    | none => rfl
    | some word =>
      cases machine.reachedLimit? with
      | some limit => rfl
      | none =>
        dsimp only
        rw [step_rebind]
        cases machine.step renderer shader word with
        | error fault => rfl
        | ok result =>
          obtain ⟨flow, next⟩ := result
          cases flow with
          | next | jump => exact ih
          | halt => rfl

/-- **Runs.**  A run does not depend on what is to be stored. -/
theorem execute_rebind : execute renderer shader turns (machine.rebind bound)
    = Prod.map id (rebind bound) (execute renderer shader turns machine) := by
  have hready : (machine.rebind bound).ready shader = rebind bound <$> machine.ready shader :=
    @ready_reframe _ shader machine id fun _ => bound
  unfold execute
  rw [hready]
  change (if machine.registers.symbols.size = shader.symbols.size then _ else _) = _
  split
  next =>
    cases machine.ready shader with
    | error fault => rfl
    | ok first => exact run_rebind
  next => rfl

/-- A prepared grid loads a machine as the grid does that it was made of, but has more symbols
    stored. -/
theorem load_prepared {grid prepared : Grid}
    (hdeclared : Declared shader.name shader.constants shader.symbols)
    (h : Shader.Prepares shader.symbols.symbols.toList grid prepared) :
    load shader prepared machine = rebind (shader.symbols.symbols.map fun symbol =>
      (Shader.boundValue? prepared symbol).isSome) <$> load shader grid machine := by
  have hpoints : prepared.points = grid.points := by
    rw [Grid.points, Grid.points, h.width_eq, h.height_eq]
  unfold load
  rw [hpoints, h.width_eq, h.height_eq]
  cases hcount : grid.points with
  | error fault => rfl
  | ok count =>
    obtain ⟨-, rfl⟩ := countPoints_eq_ok.mp hcount
    simp only [ok_bind, Array.mapM_eq_mapM_toList]
    rw [mapM_congr fun symbol hsymbol => Shader.loadedValue_prepared hdeclared h hsymbol]
    simp only [map_bind, map_pure]
    rfl

end Machine

/-! ### Shading -/

/-- The name is that of a parameter which the grid does not bind. -/
def Shader.LacksParameter (shader : Shader) (grid : Grid) (name : String) : Prop :=
  grid.value? name = none ∧
    ∃ symbol ∈ shader.symbols.symbols.toList, symbol.kind = .parameter ∧ symbol.name = name

namespace Machine

variable {σ : Type} {renderer : Renderer σ} {shader : Shader} {machine ran last last' : Machine σ}
  {grid prepared after after' : Grid} {turns : Nat}

/-- What shading a grid and shading it once it is prepared have in common. -/
structure PreparedAlike (shader : Shader) (grid : Grid)
    (shaded prepared : Outcome × Machine σ × Grid) : Prop where
  outcome_eq : prepared.1 = shaded.1
  executed_eq : prepared.2.1.executed = shaded.2.1.executed
  /-- Names are bound to the same values. -/
  values : shaded.1.isReturned = true → ∀ name, ¬ shader.LacksParameter grid name →
    prepared.2.2.value? name = shaded.2.2.value? name
  /-- Parameters that were not bound are bound only in the grid that was prepared. -/
  parameters : shaded.1.isReturned = true → ∀ name, shader.LacksParameter grid name →
    (prepared.2.2.value? name).isSome = true ∧ shaded.2.2.value? name = none

/-- A symbol that was read from the grid is stored again. -/
theorem isStored_of_bound {symbol : Symbol} {bound : Array Bool} {n : Nat}
    (hbound : bound = shader.symbols.symbols.map fun symbol =>
      (Shader.boundValue? grid symbol).isSome)
    (hsymbol : shader.symbols.symbols[n]? = some symbol) :
    IsStored bound symbol n ↔
      symbol.kind = .global ∨ (Shader.boundValue? grid symbol).isSome = true := by
  simp [IsStored, hbound, hsymbol]

/-- What storing leaves in the two grids. -/
theorem store_prepared (hdeclared : Declared shader.name shader.constants shader.symbols)
    (hprepares : Shader.Prepares shader.symbols.symbols.toList grid prepared)
    (hbound : ran.bound = shader.symbols.symbols.map fun symbol =>
      (Shader.boundValue? grid symbol).isSome)
    (h : store shader (shader.unbind grid) ran = (.ok (), last, after))
    (h' : store shader (shader.unbind prepared) (ran.rebind (shader.symbols.symbols.map fun symbol =>
      (Shader.boundValue? prepared symbol).isSome)) = (.ok (), last', after')) (name : String) :
    (¬ shader.LacksParameter grid name → after'.value? name = after.value? name) ∧
      (shader.LacksParameter grid name →
        (after'.value? name).isSome = true ∧ after.value? name = none) := by
  by_cases hsymbol : ∃ symbol ∈ shader.symbols.symbols.toList,
      symbol.isBindable = true ∧ symbol.name = name
  · obtain ⟨symbol, hsymbol, hbindable, rfl⟩ := hsymbol
    obtain ⟨n, hn⟩ := List.mem_iff_getElem?.mp hsymbol
    have hslot : shader.symbols.symbols[n]? = some symbol := by rwa [← Array.getElem?_toList]
    -- once prepared, the grid binds the symbol, so that it is stored
    have hstored' : IsStored (shader.symbols.symbols.map fun symbol =>
        (Shader.boundValue? prepared symbol).isSome) symbol (0 + n) := by
      rw [Nat.zero_add, isStored_of_bound rfl hslot]
      obtain ⟨_, -, hsome⟩ | ⟨-, _, -, -, hsome⟩ :=
        Shader.boundValue?_prepared hdeclared hprepares hsymbol hbindable
      all_goals exact .inr (by rw [hsome]; rfl)
    obtain ⟨value', hvalue', hafter'⟩ :=
      value?_of_storeSymbols hdeclared.distinct h' hn hstored'
    have hfound : Shader.boundValue? grid symbol = grid.value? symbol.name := if_pos hbindable
    refine ⟨fun hhas => ?_, fun hlacks => ⟨by rw [hafter']; rfl, ?_⟩⟩
    · have hstored : IsStored ran.bound symbol (0 + n) := by
        rw [Nat.zero_add, isStored_of_bound hbound hslot, hfound]
        cases hkind : symbol.kind with
        | global => exact .inl rfl
        | parameter =>
          refine .inr (Option.isSome_iff_ne_none.mpr fun hnone => ?_)
          exact hhas ⟨hnone, symbol, hsymbol, hkind, rfl⟩
        | _ => simp [Symbol.isBindable, hkind] at hbindable
      obtain ⟨value, hvalue, hafter⟩ := value?_of_storeSymbols hdeclared.distinct h hn hstored
      rw [hafter, hafter']
      exact hvalue'.symm.trans hvalue
    · obtain ⟨hnone, other, hother, hkind, hname⟩ := hlacks
      obtain rfl : other = symbol := List.inj_on_of_nodup_map hdeclared.distinct hother hsymbol hname
      rw [storeSymbols_elsewhere h, Shader.value?_unbind, if_pos ⟨other, hsymbol, hbindable, rfl⟩]
      intro hmem
      obtain ⟨m, again, hagain, hstored, hname⟩ := mem_storedNames_iff.mp hmem
      obtain rfl : again = other :=
        List.inj_on_of_nodup_map hdeclared.distinct (List.mem_of_getElem? hagain) hsymbol hname
      rw [Array.getElem?_toList] at hagain
      rw [Nat.zero_add, isStored_of_bound hbound hagain, hfound, hnone, hkind] at hstored
      simp at hstored
  · refine ⟨fun _ => ?_, fun hlacks => ?_⟩
    · rw [storeSymbols_elsewhere h fun hmem => hsymbol (mem_of_mem_storedNames hbound hmem),
        storeSymbols_elsewhere h' fun hmem => hsymbol (mem_of_mem_storedNames rfl hmem),
        Shader.value?_unbind, Shader.value?_unbind, if_neg hsymbol, if_neg hsymbol]
      exact hprepares.others name fun symbol hmem hbindable hname =>
        hsymbol ⟨symbol, hmem, hbindable, hname⟩
    · obtain ⟨-, symbol, hmem, hkind, hname⟩ := hlacks
      exact absurd ⟨symbol, hmem, by simp [Symbol.isBindable, hkind], hname⟩ hsymbol

/-- Storing counts for no instruction. -/
theorem executed_of_store : (store shader grid machine).2.1.executed = machine.executed := by
  obtain ⟨_, hframe⟩ := storeSymbols_frame shader.symbols.symbols.toList 0 grid machine
  rw [store, hframe]

/-- Shading a grid that could be prepared, and shading it prepared. -/
theorem shadeInPlace_prepared (hdeclared : Declared shader.name shader.constants shader.symbols)
    (hgrid : grid.IsValid) (hprepare : shader.prepare grid = (.ok (), prepared))
    (hrenderer : renderer.OnlyWritesFloats)
    (hderives : ∀ loaded first, load shader grid machine = .ok loaded →
      loaded.ready shader = .ok first → DerivesValues renderer shader first) :
    PreparedAlike shader grid (shadeInPlace renderer shader turns grid machine)
      (shadeInPlace renderer shader turns prepared machine) := by
  obtain ⟨hvalid, hprepares⟩ := Shader.prepares_of_prepare hdeclared hprepare
  have hvalid' := Shader.validate_prepared hdeclared hprepares hvalid
  have hload' := @load_prepared _ _ machine _ _ hdeclared hprepares
  cases hload : load shader grid machine with
  | error fault =>
    rw [hload] at hload'
    rw [shadeInPlace, hvalid, hload, shadeInPlace, hvalid', hload']
    refine ⟨rfl, rfl, fun hreturned => ?_, fun hreturned => ?_⟩ <;> cases hreturned
  | ok loaded =>
    rw [hload] at hload'
    rw [shadeInPlace_eq hvalid hload, shadeInPlace_eq hvalid' hload', execute_rebind]
    rcases hexecute : execute renderer shader turns loaded with ⟨ended, ran⟩
    rw [Prod.map_apply, id]
    cases hended : ended.isReturned with
    | false =>
      rw [settle_of_not_isReturned hended, settle_of_not_isReturned hended]
      exact ⟨rfl, rfl, fun h => by simp [hended] at h, fun h => by simp [hended] at h⟩
    | true =>
      cases hready : loaded.ready shader with
      | error fault =>
        rw [execute, if_pos (size_symbols_of_load hload), hready] at hexecute
        obtain ⟨rfl, -⟩ := Prod.mk.inj hexecute
        cases hended
      | ok first =>
        rw [execute_eq (size_symbols_of_load hload) hready] at hexecute
        obtain ⟨hsize, hfills⟩ := fills_of_run hdeclared hgrid hrenderer hvalid hload hready
          (hderives loaded first hload hready) hexecute
        have hpoints := (load_eq_ok.mp hload).1
        have hstore := store_of_fills hpoints hsize hfills
        -- the symbols hold the same, so they can be stored in the prepared grid as well
        rw [← hprepares.width_eq, ← hprepares.height_eq] at hpoints hfills
        have hstore' := @store_of_fills _ shader (ran.rebind (shader.symbols.symbols.map fun symbol =>
          (Shader.boundValue? prepared symbol).isSome)) prepared hpoints hsize hfills
        have halike := store_prepared hdeclared hprepares (bound_of_run hload hready hexecute)
          (Prod.ext hstore rfl) (Prod.ext hstore' rfl)
        rw [settle_of_isReturned hended, settle_of_isReturned hended, hstore, hstore']
        refine ⟨rfl, ?_, fun _ name => (halike name).1, fun _ name => (halike name).2⟩
        dsimp only
        rw [executed_of_store, executed_of_store]
        rfl

/-- Shading in place reports a mismatch exactly if the grid is refused. -/
theorem mismatch_iff_validate {error : MachineError} : error.isMismatch = true ∧
    (shadeInPlace renderer shader turns grid machine).1 = .failed (.error error) ↔
      shader.validate grid = .error error := by
  constructor
  · rintro ⟨hmismatch, houtcome⟩
    rcases hshaded : shadeInPlace renderer shader turns grid machine with ⟨outcome, last, after⟩
    rw [hshaded] at houtcome
    dsimp only at houtcome
    subst houtcome
    generalize houtcome : Outcome.failed (.error error) = outcome at hshaded
    cases shades_of_shadeInPlace hshaded (houtcome ▸ rfl) with
    | refused hvalid =>
      obtain rfl : error = _ := by simpa using houtcome
      exact hvalid
    | @stored _ _ _ _ _ ended progress _ _ _ hrun _ hstore =>
      -- a run ends in the limit of instructions at most, and storing in an error of the grid
      cases progress with
      | ok _ =>
        obtain ⟨limit, rfl⟩ := run_error ((congrArg Prod.fst hrun).trans houtcome.symm)
        cases hmismatch
      | error failure =>
        obtain rfl : Failure.error error = failure := by simpa [Outcome.orFailure] using houtcome
        obtain ⟨cause, rfl⟩ := grid_of_storeSymbols hstore
        cases hmismatch
  · intro hvalid
    rw [shadeInPlace, hvalid]
    exact ⟨validate_isMismatch hvalid, rfl⟩

/-- **Preparing.**  Let a text describe a shader.  Unless there is no room for the initial values of
    its symbols, preparing a valid grid refuses it exactly if shading it does, with the same error.
    Otherwise the grid and the prepared grid are shaded alike, as long as the renderer does no more than
    overwrite floats and no symbol is given the derivative of a register that holds nothing. -/
theorem prepare_binds_parameters_only {text : String} (hassemble : assemble text = .ok shader)
    (hgrid : grid.IsValid) (renderer : Renderer σ) (turns : Nat) (machine : Machine σ) :
    (∀ fault, (shader.prepare grid).1 = .error (.fault fault) →
      fault = .tooLarge ∧ 0x8000000000000000 ≤ 64 * (grid.width * grid.height)) ∧
    ((∀ fault, (shader.prepare grid).1 ≠ .error (.fault fault)) →
      ∀ error, (shader.prepare grid).1 = .error (.error error) ↔ error.isMismatch = true ∧
        (shadeInPlace renderer shader turns grid machine).1 = .failed (.error error)) ∧
    ∀ prepared, shader.prepare grid = (.ok (), prepared) → renderer.OnlyWritesFloats →
      (∀ loaded first, load shader grid machine = .ok loaded → loaded.ready shader = .ok first →
        DerivesValues renderer shader first) →
      PreparedAlike shader grid (shadeInPlace renderer shader turns grid machine)
        (shadeInPlace renderer shader turns prepared machine) := by
  have hdeclared := assemble_declared hassemble
  have hattempts := Shader.prepare_attempts hdeclared grid
  refine ⟨fun fault hfault => ?_, fun hfaults error => ?_, fun prepared hprepare =>
    shadeInPlace_prepared hdeclared hgrid hprepare⟩
  · rcases hresult : shader.prepare grid with ⟨progress, rest⟩
    rw [hresult] at hattempts hfault
    cases hattempts with
    | prepared | refused => cases hfault
    | tooLarge hlarge =>
      obtain rfl : Fault.tooLarge = fault := by simpa using hfault
      exact ⟨rfl, hlarge⟩
  · rw [mismatch_iff_validate]
    rcases hresult : shader.prepare grid with ⟨progress, rest⟩
    rw [hresult] at hattempts hfaults
    have hvalidate : shader.validate grid
        = shader.symbols.symbols.toList.forM (Shader.checkBound grid) := rfl
    rw [hvalidate]
    cases hattempts with
    | prepared hcheck => simp [hcheck]
    | refused hcheck => simp [hcheck]
    | tooLarge => exact absurd rfl (hfaults .tooLarge)

/-- The commands of `grey`, those included that its operands would be. -/
theorem commandAt_grey {ip : Nat} {command : Command} (h : grey.CommandAt ip command) :
    command ∈ [.jump .empty (some 11), .call (.component .x) (.temporary 0) [.symbol 0], .nothing,
      .halt, .compute (.copy ⟨.varying, .three⟩ ⟨.varying, .one⟩) (some .color) (.symbol 0)
        (.temporary 0) (.temporary 0)] := by
  obtain ⟨word, instruction, hword, hinstruction, hcommand⟩ := h
  have hip : ip < 11 := (Array.getElem?_eq_some_iff.mp hword).1
  match ip with
  | 0 | 2 | 3 | 5 | 7 =>
    obtain rfl := Option.some.inj hword
    obtain rfl := Except.ok.inj hinstruction
    obtain rfl := Except.ok.inj hcommand
    decide
  | 1 | 10 =>
    obtain rfl := Option.some.inj hword
    obtain rfl := Except.ok.inj hinstruction
    cases hcommand
  | 4 | 6 | 8 | 9 =>
    obtain rfl := Option.some.inj hword
    cases hinstruction

theorem prepare_binds_parameters_only_grey : ∃ prepared,
    grey.prepare twoPoints = (.ok (), prepared) ∧ grey.LacksParameter twoPoints "k" ∧
      (shadeInPlace (.ofScene .still) grey 10 twoPoints idle).1 = .finished ∧
      PreparedAlike grey twoPoints (shadeInPlace (.ofScene .still) grey 10 twoPoints idle)
        (shadeInPlace (.ofScene .still) grey 10 prepared idle) := by
  have hprepare : (grey.prepare twoPoints).1.isOk = true := by decide +kernel
  rcases hresult : grey.prepare twoPoints with ⟨progress, prepared⟩
  rw [hresult] at hprepare
  cases progress with
  | error failure => cases hprepare
  | ok _ =>
    refine ⟨prepared, rfl, ⟨?_, ⟨"k", .parameter, .float, .uniform, some (.uniformFloat 0.5)⟩, ?_⟩,
      by decide +kernel, ?_⟩
    · simp [twoPoints, Grid.value?, NameMap.find?, NameMap.findIn]
    · simp [grey]
    · refine (prepare_binds_parameters_only assemble_greyText twoPoints_isValid _ _ _).2.2 prepared
        hresult (Renderer.ofScene_onlyWritesFloats _) fun _ _ _ _ machine command _ hcommand => ?_
      have hmem := commandAt_grey hcommand
      simp only [List.mem_cons, List.not_mem_nil, or_false] at hmem
      obtain rfl | rfl | rfl | rfl | rfl := hmem <;> exact id

/-- Only the prepared grid has the symbol stored, which is left without an element. -/
theorem slopeOfNothing_prepared_differs :
    assemble ".parameter uniform float x
call du @x, %0" = .ok (slopeOfNothing .parameter) ∧
      ((slopeOfNothing .parameter).prepare (.new 1 1)).1 = .ok () ∧
      (shadeInPlace (.ofScene .still) (slopeOfNothing .parameter) 10 (.new 1 1) idle).1 = .finished ∧
      (shadeInPlace (.ofScene .still) (slopeOfNothing .parameter) 10
        ((slopeOfNothing .parameter).prepare (.new 1 1)).2 idle).1
          = .failed (.error (.grid (.sizeMismatch "x" 1 0))) := by
  refine ⟨?_, ?_, by decide +kernel, by decide +kernel⟩
  · with_unfolding_all rfl
  · with_unfolding_all rfl

end Machine

end Shading
