import Shading.Proofs.Bindings
import Shading.Proofs.Resemblance

namespace Shading

/-!
# Uniform values carry nothing from the points

Two runs of code without jumps over grids that differ in varying values only.  The machines resemble
each other from the first instruction to the last, so both runs end in the same way, with the same in
all uniform symbols.

* `Shader.IsPlain` — code without jumps that evaluates no shaders;
* `Grid.AlikeFor` — grids that differ in what they bind to varying symbols;
* `Machine.run_resembles` — runs of machines that resemble each other;
* `Machine.uniform_values_alike` — shading such grids.
-/

variable {points : Nat}

/-- The code has no jumps and evaluates no shaders. -/
def Shader.IsPlain (shader : Shader) : Prop :=
  ∀ ip command, Boundary shader.code ip → shader.CommandAt ip command → command.isPlain = true

/-! ### Runs -/

namespace Machine

variable {σ : Type} {renderer : Renderer σ} {shader : Shader} {machine machine' next next' : Machine σ}
  {flow flow' : Flow} {turns turns' : Nat} {outcome outcome' : Outcome}

theorem Resembles.counted (h : machine.Resembles machine') :
    { machine with executed := machine.executed + 1 }.Resembles
      { machine' with executed := machine'.executed + 1 } :=
  ⟨h.config_eq, h.ip_eq, h.width_eq, h.height_eq, h.bound_eq, congrArg (· + 1) h.executed_eq,
    h.registers⟩

theorem Resembles.moved {code : Array Word} {ip : Nat} {opcode : Opcode}
    (h : machine.Resembles machine') (hmoved : machine.moved code ip opcode flow = .ok next)
    (hmoved' : machine'.moved code ip opcode flow = .ok next') : next.Resembles next' := by
  cases flow with
  | next =>
    obtain ⟨size, hsize, hnext⟩ := bind_eq_ok.mp hmoved
    obtain ⟨size', hsize', hnext'⟩ := bind_eq_ok.mp hmoved'
    obtain rfl := Except.ok.inj (hsize.symm.trans hsize')
    obtain rfl := pure_eq_ok.mp hnext
    obtain rfl := pure_eq_ok.mp hnext'
    exact ⟨h.config_eq, rfl, h.width_eq, h.height_eq, h.bound_eq, h.executed_eq, h.registers⟩
  | jump target =>
    obtain rfl := Except.ok.inj hmoved
    obtain rfl := Except.ok.inj hmoved'
    exact ⟨h.config_eq, rfl, h.width_eq, h.height_eq, h.bound_eq, h.executed_eq, h.registers⟩
  | halt =>
    obtain rfl := Except.ok.inj hmoved
    obtain rfl := Except.ok.inj hmoved'
    exact h

/-- **Instructions.**  Machines that resemble each other before an instruction do so after it. -/
theorem Resembles.step {word : Word} (h : machine.Resembles machine') (hover : machine.Over points)
    (hover' : machine'.Over points) (hconstants : Value.AllOver points shader.constants)
    (hword : shader.code[machine.ip]? = some word)
    (hplain : ∀ command, shader.CommandAt machine.ip command → command.isPlain = true)
    (hstep : machine.step renderer shader word = .ok (flow, next))
    (hstep' : machine'.step renderer shader word = .ok (flow', next')) :
    flow = flow' ∧ next.Resembles next' := by
  obtain ⟨instruction, command, last, hinstruction, hdecode, hperform, hmoved⟩ := step_eq_ok.mp hstep
  obtain ⟨instruction', command', last', hinstruction', hdecode', hperform', hmoved'⟩ :=
    step_eq_ok.mp hstep'
  obtain rfl := Except.ok.inj (hinstruction.symm.trans hinstruction')
  rw [← h.ip_eq] at hdecode' hmoved'
  obtain rfl := Except.ok.inj (hdecode.symm.trans hdecode')
  obtain ⟨rfl, hlast⟩ := (perform_eq_ok.mp hperform).resembles (perform_eq_ok.mp hperform') h.counted
    hover.counted hover'.counted hconstants
    (hplain command ⟨word, instruction, hword, hinstruction, hdecode⟩)
    (Command.fits_of_decode hdecode) (Command.passesNoMore_of_decode hdecode)
  exact ⟨rfl, hlast.moved hmoved hmoved'⟩

/-- Turns that both lead on or both end a run. -/
inductive TurnsAlike : Turn σ → Turn σ → Prop
  | on {next next' : Machine σ} (h : next.Resembles next') : TurnsAlike (.on next) (.on next')
  | ended {outcome : Outcome} {last last' : Machine σ} (h : last.Resembles last') :
      TurnsAlike (.over outcome last) (.over outcome last')

/-- **Turns** of machines that resemble each other are alike, unless one of them faults. -/
theorem Resembles.turn (h : machine.Resembles machine') (hover : machine.Over points)
    (hover' : machine'.Over points) (hconstants : Value.AllOver points shader.constants)
    (hplain : ∀ command, shader.CommandAt machine.ip command → command.isPlain = true) :
    TurnsAlike (turn renderer shader machine) (turn renderer shader machine') ∨
      (∃ fault last, turn renderer shader machine = .over (.failed (.fault fault)) last) ∨
      ∃ fault last, turn renderer shader machine' = .over (.failed (.fault fault)) last := by
  have hlimit : machine'.reachedLimit? = machine.reachedLimit? := by
    rw [reachedLimit?, reachedLimit?, h.config_eq, h.executed_eq]
  rw [Machine.turn, Machine.turn, ← h.ip_eq, hlimit]
  cases hword : shader.code[machine.ip]? with
  | none => exact .inl (.ended h)
  | some word =>
    cases machine.reachedLimit? with
    | some limit => exact .inl (.ended h)
    | none =>
      dsimp only
      cases hstep : machine.step renderer shader word with
      | error fault => exact .inr (.inl ⟨fault, machine, rfl⟩)
      | ok result =>
        cases hstep' : machine'.step renderer shader word with
        | error fault => exact .inr (.inr ⟨fault, machine', rfl⟩)
        | ok result' =>
          obtain ⟨flow, next⟩ := result
          obtain ⟨flow', next'⟩ := result'
          obtain ⟨rfl, hnext⟩ := h.step hover hover' hconstants hword hplain hstep hstep'
          cases flow with
          | next | jump => exact .inl (.on hnext)
          | halt => exact .inl (.ended hnext)

/-- After a plain instruction, registers and masks still suit the points. -/
theorem Over.turn (h : machine.Over points) (hconstants : Value.AllOver points shader.constants)
    (hplain : ∀ command, shader.CommandAt machine.ip command → command.isPlain = true)
    (hturn : turn renderer shader machine = .on next) : next.Over points := by
  obtain ⟨word, flow, hword, -, hstep, -⟩ := turn_eq_on.mp hturn
  refine h.step hconstants hword (fun name hcommand => ?_) hstep
  cases hplain _ hcommand

/-- After a plain instruction, a run is at the start of another one. -/
theorem boundary_of_turn (hboundary : Boundary shader.code machine.ip)
    (hplain : ∀ command, shader.CommandAt machine.ip command → command.isPlain = true)
    (hturn : turn renderer shader machine = .on next) : Boundary shader.code next.ip := by
  obtain ⟨word, flow, hword, -, hstep, hhalt⟩ := turn_eq_on.mp hturn
  refine boundary_of_step (fun condition target hcommand => ?_) hboundary hword hstep hhalt
  cases hplain _ hcommand

/-- **Runs** of machines that resemble each other, if both return, end in the same way, and with
    machines that resemble each other. -/
theorem run_resembles {ran ran' : Machine σ} (hconstants : Value.AllOver points shader.constants)
    (hplain : shader.IsPlain) (h : machine.Resembles machine') (hover : machine.Over points)
    (hover' : machine'.Over points) (hboundary : Boundary shader.code machine.ip)
    (hrun : run renderer shader turns machine = (outcome, ran))
    (hrun' : run renderer shader turns' machine' = (outcome', ran'))
    (hreturned : outcome.isReturned = true) (hreturned' : outcome'.isReturned = true) :
    outcome = outcome' ∧ ran.Resembles ran' := by
  induction turns generalizing machine machine' turns' with
  | zero =>
    obtain ⟨rfl, -⟩ := Prod.mk.inj hrun
    cases hreturned
  | succ turns ih =>
    cases turns' with
    | zero =>
      obtain ⟨rfl, -⟩ := Prod.mk.inj hrun'
      cases hreturned'
    | succ turns' =>
      have hhere := fun command => hplain machine.ip command hboundary
      rw [run] at hrun hrun'
      obtain halike | ⟨fault, last, hfault⟩ | ⟨fault, last, hfault⟩ :=
        @Resembles.turn _ _ renderer shader _ _ h hover hover' hconstants hhere
      · generalize hturn : turn renderer shader machine = now at hrun halike
        generalize hturn' : turn renderer shader machine' = now' at hrun' halike
        cases halike with
        | on hnext =>
          exact ih hnext (hover.turn hconstants hhere hturn)
            (hover'.turn hconstants (h.ip_eq ▸ hhere) hturn')
            (boundary_of_turn hboundary hhere hturn) hrun hrun'
        | ended hlast =>
          obtain ⟨rfl, rfl⟩ := Prod.mk.inj hrun
          obtain ⟨rfl, rfl⟩ := Prod.mk.inj hrun'
          exact ⟨rfl, hlast⟩
      · rw [hfault] at hrun
        obtain ⟨rfl, -⟩ := Prod.mk.inj hrun
        cases hreturned
      · rw [hfault] at hrun'
        obtain ⟨rfl, -⟩ := Prod.mk.inj hrun'
        cases hreturned'

end Machine

/-! ### Grids -/

/-- Two grids of the same dimensions that bind values of the same types and storages to the symbols of
    a shader, and the same values to those that are declared uniform. -/
structure Grid.AlikeFor (shader : Shader) (grid grid' : Grid) : Prop where
  width_eq : grid.width = grid'.width
  height_eq : grid.height = grid'.height
  shapes : ∀ symbol ∈ shader.symbols.symbols.toList, symbol.isBindable = true →
    Option.Rel (fun value value' => value.type = value'.type ∧ value.storage = value'.storage)
      (grid.value? symbol.name) (grid'.value? symbol.name)
  uniform : ∀ symbol ∈ shader.symbols.symbols.toList, symbol.isBindable = true →
    symbol.storage = .uniform → grid.value? symbol.name = grid'.value? symbol.name

namespace Grid.AlikeFor

variable {shader : Shader} {grid grid' : Grid} {symbol : Symbol}

/-- What such grids bind to a symbol. -/
theorem boundValue? (h : grid.AlikeFor shader grid')
    (hsymbol : symbol ∈ shader.symbols.symbols.toList) :
    Option.Rel (fun value value' => value.type = value'.type ∧ value.storage = value'.storage)
      (Shader.boundValue? grid symbol) (Shader.boundValue? grid' symbol) ∧
    (symbol.storage = .uniform →
      Shader.boundValue? grid symbol = Shader.boundValue? grid' symbol) := by
  unfold Shader.boundValue?
  cases hbindable : symbol.isBindable with
  | false => exact ⟨.none, fun _ => rfl⟩
  | true => exact ⟨h.shapes symbol hsymbol hbindable, h.uniform symbol hsymbol hbindable⟩

/-- Such grids are refused alike. -/
theorem validate_eq (h : grid.AlikeFor shader grid') :
    shader.validate grid = shader.validate grid' := by
  refine forM_congr fun symbol hsymbol => ?_
  cases hbindable : symbol.isBindable with
  | false => rfl
  | true =>
    have hshapes := h.shapes symbol hsymbol hbindable
    generalize grid.value? symbol.name = bound at hshapes
    generalize grid'.value? symbol.name = bound' at hshapes
    cases hshapes with
    | none => rfl
    | some hshape =>
      dsimp only
      rw [Symbol.checkBinding, Symbol.checkBinding, Value.isVarying, Value.isVarying, hshape.1,
        hshape.2]

end Grid.AlikeFor

/-- Values as declared resemble each other, if those of a uniform symbol are loaded from the same. -/
theorem Symbol.loadedValue_resembles {symbol : Symbol} {bound bound' : Option Value}
    {value value' : Value} (hdeclared : symbol.IsDeclared)
    (hbound : ∀ value, bound = some value →
      symbol.checkBinding value = .ok () ∧ value.size = value.storage.size points)
    (hbound' : ∀ value, bound' = some value →
      symbol.checkBinding value = .ok () ∧ value.size = value.storage.size points)
    (huniform : symbol.storage = .uniform → bound = bound')
    (h : symbol.loadedValue points bound = .ok value)
    (h' : symbol.loadedValue points bound' = .ok value') : value.Resembles value' := by
  have hholds := loadedValue_holds hdeclared hbound h
  have hholds' := loadedValue_holds hdeclared hbound' h'
  refine ⟨hholds.type_eq.trans hholds'.type_eq.symm, hholds.storage_eq.trans hholds'.storage_eq.symm,
    hholds.size_eq.trans hholds'.size_eq.symm, fun hstorage => ?_⟩
  rw [huniform (hholds.storage_eq.symm.trans hstorage), h'] at h
  exact (Except.ok.inj h).symm

namespace Machine

variable {σ : Type} {shader : Shader} {machine loaded loaded' first first' : Machine σ}
  {grid grid' : Grid}

/-- Such grids load values that resemble each other. -/
theorem load_resembles (hdeclared : Declared shader.name shader.constants shader.symbols)
    (hgrid : grid.IsValid) (hgrid' : grid'.IsValid) (halike : grid.AlikeFor shader grid')
    (hvalid : shader.validate grid = .ok ()) (hload : load shader grid machine = .ok loaded)
    (hload' : load shader grid' machine = .ok loaded') : loaded.Resembles loaded' := by
  have hvalid' := halike.validate_eq.symm.trans hvalid
  obtain ⟨-, symbols, hsymbols, rfl⟩ := load_eq_ok.mp hload
  obtain ⟨-, symbols', hsymbols', rfl⟩ := load_eq_ok.mp hload'
  obtain ⟨hsize, hsymbols⟩ := array_mapM_eq_ok.mp hsymbols
  obtain ⟨hsize', hsymbols'⟩ := array_mapM_eq_ok.mp hsymbols'
  refine ⟨rfl, rfl, halike.width_eq, halike.height_eq, ?_, rfl, ⟨?_, .refl _⟩⟩
  · refine Array.map_congr_left fun symbol hsymbol => ?_
    have hshapes := (halike.boundValue? (Array.mem_toList_iff.mpr hsymbol)).1
    generalize Shader.boundValue? grid symbol = bound at hshapes
    generalize Shader.boundValue? grid' symbol = bound' at hshapes
    cases hshapes <;> rfl
  · refine ⟨hsize.symm.trans hsize', fun n value value' hvalue hvalue' => ?_⟩
    have hlt : n < shader.symbols.symbols.size := by
      rw [hsize]
      exact (Array.getElem?_eq_some_iff.mp hvalue).1
    have hsymbol := Array.getElem?_eq_getElem hlt
    have hmem := Array.mem_toList_iff.mpr (Array.getElem_mem hlt)
    obtain ⟨given, hgiven, hloaded⟩ := hsymbols n _ hsymbol
    obtain ⟨given', hgiven', hloaded'⟩ := hsymbols' n _ hsymbol
    obtain rfl := Option.some.inj (hvalue.symm.trans hgiven)
    obtain rfl := Option.some.inj (hvalue'.symm.trans hgiven')
    rw [← halike.width_eq, ← halike.height_eq] at hloaded'
    refine Symbol.loadedValue_resembles (hdeclared.isDeclared _ (Array.getElem_mem hlt))
      (fun _ => Shader.bound_of_validate hgrid hvalid hmem) (fun value hbound => ?_)
      (halike.boundValue? hmem).2 hloaded hloaded'
    rw [halike.width_eq, halike.height_eq]
    exact Shader.bound_of_validate hgrid' hvalid' hmem hbound

theorem Resembles.ready (h : loaded.Resembles loaded') (hready : loaded.ready shader = .ok first)
    (hready' : loaded'.ready shader = .ok first') : first.Resembles first' := by
  obtain ⟨-, cleared, registers, hcleared, hregisters, rfl⟩ := ready_eq_ok.mp hready
  obtain ⟨-, cleared', registers', hcleared', hregisters', rfl⟩ := ready_eq_ok.mp hready'
  have hresembles := (h.registers.clearTemporaries hcleared hcleared').clearTemporaries hregisters
    hregisters'
  exact ⟨h.config_eq, rfl, h.width_eq, h.height_eq, h.bound_eq, rfl, hresembles⟩

end Machine

/-- Two grids of the same dimensions in which certain names are bound to values that resemble each
    other. -/
structure Grid.Resembles (names : String → Prop) (grid grid' : Grid) : Prop where
  width_eq : grid.width = grid'.width
  height_eq : grid.height = grid'.height
  values : ∀ name, names name →
    Option.Rel Value.Resembles (grid.value? name) (grid'.value? name)

/-- A value is bound in both grids, or refused by both. -/
theorem Grid.Resembles.insert {names : String → Prop} {grid grid' : Grid} {name : String}
    {value value' : Value} (h : grid.Resembles names grid')
    (hpoints : grid.width * grid.height < UInt64.size) (hvalue : value.Resembles value') :
    (grid.insert name value = .ok (grid.bind name value) ∧
      grid'.insert name value' = .ok (grid'.bind name value') ∧
      (grid.bind name value).Resembles names (grid'.bind name value')) ∨
    ∃ failure, grid.insert name value = .error failure ∧ grid'.insert name value' = .error failure := by
  have hpoints' : grid'.width * grid'.height < UInt64.size := by
    rwa [← h.width_eq, ← h.height_eq]
  rw [insert_eq hpoints, insert_eq hpoints', ← h.width_eq, ← h.height_eq, ← hvalue.size_eq,
    ← hvalue.storage_eq]
  split
  next =>
    refine .inl ⟨rfl, rfl, h.width_eq, h.height_eq, fun other hother => ?_⟩
    rw [value?_bind, value?_bind]
    split
    next => exact .some hvalue
    next => exact h.values other hother
  next => exact .inr ⟨_, rfl, rfl⟩

namespace Machine

variable {σ : Type} {renderer : Renderer σ} {shader : Shader}
  {machine machine' last last' : Machine σ} {grid grid' after after' : Grid}
  {progress progress' : Progress} {turns turns' : Nat} {outcome outcome' : Outcome}

/-- **Storing.**  Symbols that resemble each other are stored alike. -/
theorem storeSymbols_resembles {names : String → Prop} {symbols : List Symbol} {slot : Nat}
    (hgrids : grid.Resembles names grid') (hpoints : grid.width * grid.height < UInt64.size)
    (hbound : machine.bound = machine'.bound)
    (hsymbols : Value.AllResemble machine.registers.symbols machine'.registers.symbols)
    (h : storeSymbols symbols slot grid machine = (progress, last, after))
    (h' : storeSymbols symbols slot grid' machine' = (progress', last', after')) :
    progress = progress' ∧ after.Resembles names after' := by
  induction symbols generalizing slot grid grid' machine machine' with
  | nil =>
    obtain ⟨rfl, -, rfl⟩ := by simpa [storeSymbols] using h
    obtain ⟨rfl, -, rfl⟩ := by simpa [storeSymbols] using h'
    exact ⟨rfl, hgrids⟩
  | cons symbol symbols ih =>
    rw [storeSymbols] at h h'
    split at h
    next hstored =>
      rw [if_pos (by rwa [← hbound])] at h'
      obtain ⟨value, value', hvalue, hvalue', hresembles⟩ | ⟨hvalue, hvalue'⟩ := hsymbols.fetch slot <;>
        rw [hvalue] at h <;> rw [hvalue'] at h'
      · dsimp only at h h'
        obtain ⟨hinsert, hinsert', hnext⟩ | ⟨failure, hinsert, hinsert'⟩ :=
          @Grid.Resembles.insert _ _ _ symbol.name _ _ hgrids hpoints hresembles <;>
          rw [hinsert] at h <;> rw [hinsert'] at h'
        · refine ih hnext hpoints ?_ ?_ h h'
          · exact hbound
          · exact hsymbols.set (.refl Value.empty)
        · obtain ⟨rfl, -, rfl⟩ := by simpa using h
          obtain ⟨rfl, -, rfl⟩ := by simpa using h'
          exact ⟨rfl, hgrids⟩
      · obtain ⟨rfl, -, rfl⟩ := by simpa using h
        obtain ⟨rfl, -, rfl⟩ := by simpa using h'
        exact ⟨rfl, hgrids⟩
    next hstored =>
      rw [if_neg (by rwa [← hbound])] at h'
      exact ih hgrids hpoints hbound hsymbols h h'

/-- The names of the globals and parameters, none of which an emptied grid binds. -/
theorem unbind_resembles (h : grid.AlikeFor shader grid') :
    (shader.unbind grid).Resembles (fun name => ∃ symbol ∈ shader.symbols.symbols.toList,
      symbol.isBindable = true ∧ symbol.name = name) (shader.unbind grid') where
  width_eq := by rw [Shader.unbind_dimensions.1, Shader.unbind_dimensions.1, h.width_eq]
  height_eq := by rw [Shader.unbind_dimensions.2, Shader.unbind_dimensions.2, h.height_eq]
  values name hname := by
    rw [Shader.value?_unbind, Shader.value?_unbind, if_pos hname, if_pos hname]
    exact .none

/-- **Uniformity.**  Let a text describe a shader whose code neither jumps nor evaluates shaders, and
    let two valid grids differ in what they bind to varying symbols.  Shading them in place, if it
    returns, has the same outcome.  Either both are refused and left as they are, or all symbols are of
    the same types and storages when the runs end, and those that are uniform have the same values; so
    have those that the grids are left with. -/
theorem uniform_values_alike {text : String} (hassemble : assemble text = .ok shader)
    (hplain : shader.IsPlain) (hgrid : grid.IsValid) (hgrid' : grid'.IsValid)
    (halike : grid.AlikeFor shader grid')
    (h : shadeInPlace renderer shader turns grid machine = (outcome, last, after))
    (h' : shadeInPlace renderer shader turns' grid' machine = (outcome', last', after'))
    (hreturned : outcome.isReturned = true) (hreturned' : outcome'.isReturned = true) :
    outcome = outcome' ∧
      ((∃ error, shader.validate grid = .error error ∧ (last, after) = (machine, grid) ∧
        (last', after') = (machine, grid')) ∨
      ∃ loaded loaded', load shader grid machine = .ok loaded ∧
        load shader grid' machine = .ok loaded' ∧
        Value.AllResemble (execute renderer shader turns loaded).2.registers.symbols
          (execute renderer shader turns' loaded').2.registers.symbols ∧
        ∀ symbol ∈ shader.symbols.symbols.toList, symbol.isBindable = true →
          Option.Rel Value.Resembles (after.value? symbol.name) (after'.value? symbol.name)) := by
  have hdeclared := assemble_declared hassemble
  cases shades_of_shadeInPlace h hreturned with
  | refused hvalid =>
    cases shades_of_shadeInPlace h' hreturned' with
    | refused hvalid' =>
      rw [← halike.validate_eq, hvalid, Except.error.injEq] at hvalid'
      exact ⟨by rw [hvalid'], .inl ⟨_, hvalid, rfl, rfl⟩⟩
    | stored hvalid' =>
      rw [← halike.validate_eq, hvalid] at hvalid'
      cases hvalid'
  | @stored loaded first ran _ _ ended progress hvalid hload hready hrun hended hstore =>
    cases shades_of_shadeInPlace h' hreturned' with
    | refused hvalid' =>
      rw [← halike.validate_eq, hvalid] at hvalid'
      cases hvalid'
    | @stored loaded' first' ran' _ _ ended' progress' _ hload' hready' hrun' hended' hstore' =>
      have hloaded := load_resembles hdeclared hgrid hgrid' halike hvalid hload hload'
      obtain ⟨-, hover, hip⟩ := start_over hgrid hdeclared hload hready
      obtain ⟨-, hover', -⟩ := start_over hgrid' hdeclared hload' hready'
      rw [← halike.width_eq, ← halike.height_eq] at hover'
      obtain ⟨rfl, hran⟩ := run_resembles hdeclared.allOver hplain (hloaded.ready hready hready') hover
        hover' (hip ▸ .first) hrun hrun' hended hended'
      have hpoints : (shader.unbind grid).width * (shader.unbind grid).height < UInt64.size := by
        rw [Shader.unbind_dimensions.1, Shader.unbind_dimensions.2]
        exact (load_eq_ok.mp hload).1
      obtain ⟨rfl, hafter⟩ := storeSymbols_resembles (unbind_resembles halike) hpoints hran.bound_eq
        hran.registers.symbols hstore hstore'
      refine ⟨rfl, .inr ⟨loaded, loaded', hload, hload', ?_, fun symbol hsymbol hbindable =>
        hafter.values symbol.name ⟨symbol, hsymbol, hbindable, rfl⟩⟩⟩
      rw [execute_eq (size_symbols_of_load hload) hready, hrun,
        execute_eq (size_symbols_of_load hload') hready', hrun']
      exact hran.registers.symbols

/-- A shader that doubles a uniform symbol, inside a conditional, and adds it where another symbol is
    not zero. -/
def raiseWhereSet : Shader where
  kind := .surface
  name := "main"
  code := #[4, 0x40000001, 0x111118, 0x40000000, 0x40000000, 0x211118, 0x40000001, 0x40000000, 3]
  constants := #[]
  symbols := ⟨#[⟨"k", .global, .float, .uniform, none⟩, ⟨"x", .global, .float, .varying, none⟩]⟩
  temporaries := 0

theorem isPlain_raiseWhereSet : raiseWhereSet.IsPlain := by
  rintro ip command - ⟨word, instruction, hword, hinstruction, hcommand⟩
  have hip : ip < 9 := (Array.getElem?_eq_some_iff.mp hword).1
  match ip with
  | 0 | 2 | 5 | 8 =>
    obtain rfl := Option.some.inj hword
    obtain rfl := Except.ok.inj hinstruction
    obtain rfl := Except.ok.inj hcommand
    rfl
  | 1 | 3 | 4 | 6 | 7 =>
    obtain rfl := Option.some.inj hword
    cases hinstruction

/-- Grids of two points that differ in a varying value. -/
def raised (x y : Float32) : Grid :=
  ⟨2, 1, ⟨[("k", .uniformFloat 1), ("x", .varyingFloat #[x, y])]⟩⟩

theorem value?_raised {x y : Float32} {name : String} {value : Value}
    (h : (raised x y).value? name = some value) :
    name = "k" ∧ value = .uniformFloat 1 ∨ name = "x" ∧ value = .varyingFloat #[x, y] := by
  by_cases hk : "k" = name
  · exact .inl ⟨hk.symm, by
      simpa [raised, Grid.value?, NameMap.find?, NameMap.findIn, hk, eq_comm] using h⟩
  · by_cases hx : "x" = name
    · exact .inr ⟨hx.symm, by
        simpa [raised, Grid.value?, NameMap.find?, NameMap.findIn, hk, hx, eq_comm] using h⟩
    · simp [raised, Grid.value?, NameMap.find?, NameMap.findIn, hk, hx] at h

theorem raised_isValid (x y : Float32) : (raised x y).IsValid := by
  intro name value hvalue
  obtain ⟨-, rfl⟩ | ⟨-, rfl⟩ := value?_raised hvalue <;> exact ⟨rfl, rfl⟩

theorem raised_alikeFor (x y x' y' : Float32) :
    (raised x y).AlikeFor raiseWhereSet (raised x' y') := by
  have hsymbols : ∀ symbol ∈ raiseWhereSet.symbols.symbols.toList,
      symbol = ⟨"k", .global, .float, .uniform, none⟩ ∨
        symbol = ⟨"x", .global, .float, .varying, none⟩ := by
    simp [raiseWhereSet]
  refine ⟨rfl, rfl, fun symbol hsymbol _ => ?_, fun symbol hsymbol _ huniform => ?_⟩
  · obtain rfl | rfl := hsymbols symbol hsymbol <;> exact .some ⟨rfl, rfl⟩
  · obtain rfl | rfl := hsymbols symbol hsymbol
    · rfl
    · cases huniform

set_option maxRecDepth 4000 in
theorem assemble_raiseWhereSet : assemble ".global uniform float k
.global varying float x
generate_mask @x
add_assign.u1u1 @k, @k
add_assign.v1u1 @x, @k
clear_mask" = .ok raiseWhereSet := by
  with_unfolding_all rfl

theorem uniform_values_alike_raiseWhereSet : ∃ last last' after after',
    shadeInPlace (.ofScene .still) raiseWhereSet 10 (raised 0 3) idle = (.finished, last, after) ∧
      shadeInPlace (.ofScene .still) raiseWhereSet 10 (raised 5 0) idle
        = (.finished, last', after') ∧
      (after.value? "k").map Value.storage = some .uniform ∧
      after.value? "k" = after'.value? "k" := by
  have hfinished : (shadeInPlace (.ofScene .still) raiseWhereSet 10 (raised 0 3) idle).1
      = .finished := by
    decide +kernel
  have hfinished' : (shadeInPlace (.ofScene .still) raiseWhereSet 10 (raised 5 0) idle).1
      = .finished := by
    decide +kernel
  have huniform : ((shadeInPlace (.ofScene .still) raiseWhereSet 10 (raised 0 3) idle).2.2.value?
      "k").map Value.storage = some .uniform := by
    decide +kernel
  refine ⟨_, _, _, _, Prod.ext hfinished rfl, Prod.ext hfinished' rfl, huniform, ?_⟩
  obtain ⟨-, ⟨_, hrefused, -⟩ | ⟨_, _, -, -, -, hstored⟩⟩ := uniform_values_alike
    assemble_raiseWhereSet isPlain_raiseWhereSet (raised_isValid 0 3) (raised_isValid 5 0)
    (raised_alikeFor 0 3 5 0) (Prod.ext hfinished rfl) (Prod.ext hfinished' rfl) rfl rfl
  · have hvalid : raiseWhereSet.validate (raised 0 3) = .ok () := by with_unfolding_all rfl
    cases hvalid.symm.trans hrefused
  · have hk := hstored ⟨"k", .global, .float, .uniform, none⟩ (by simp [raiseWhereSet]) rfl
    dsimp only at hk
    generalize Grid.value? _ "k" = stored at hk huniform
    generalize Grid.value? _ "k" = stored' at hk
    cases hk with
    | none => rfl
    | some hresembles => rw [hresembles.uniform (Option.some.inj huniform)]

end Machine

end Shading
