import Shading.Proofs.Effects
import Shading.Proofs.InPlace

namespace Shading

/-!
# Shading in place keeps what is bound

Shading in place takes the values of the symbols out of the grid, and stores them again once the run
has ended.  What it takes out it loses if storing stops half-way, which happens as soon as a symbol
holds fewer elements than its storage asks for.  No command leaves a symbol like that but one: the
derivative of a register that holds nothing is a uniform float without an element, and a symbol takes
it.

* `Symbol.Holds` — values as declared, which all symbols are loaded with;
* `Machine.Shades` — all that shading in place can do when it returns;
* `Machine.DerivesValues` — runs in which no symbol is given the derivative of nothing;
* `Machine.shadeInPlace_keeps_bindings` — what stays bound.
-/

variable {points : Nat}

/-! ### Values as declared -/

/-- A value of the type and storage that the symbol is declared with, over so many points. -/
structure Symbol.Holds (symbol : Symbol) (points : Nat) (value : Value) : Prop where
  type_eq : value.type = symbol.type
  storage_eq : value.storage = symbol.storage
  size_eq : value.size = symbol.storage.size points

namespace Symbol

variable {symbol : Symbol} {value : Value}

theorem checkBinding_eq_ok {u : Unit} : symbol.checkBinding value = .ok u ↔
    value.type = symbol.type ∧ (value.storage = .varying → symbol.storage = .varying) := by
  unfold checkBinding Value.isVarying Storage.isVarying
  split
  next htype => simp [htype]
  next htype =>
    have htype : value.type = symbol.type := by simpa using htype
    obtain hstorage | hstorage := value.storage.uniform_or_varying
    · simp [htype, hstorage]
    · obtain hsymbol | hsymbol := symbol.storage.uniform_or_varying <;>
        simp [htype, hstorage, hsymbol]

theorem Holds.checkBinding (h : symbol.Holds points value) : symbol.checkBinding value = .ok () :=
  checkBinding_eq_ok.mpr ⟨h.type_eq, fun hstorage => h.storage_eq ▸ hstorage⟩

theorem initialValue_holds (hdeclared : symbol.IsDeclared)
    (h : symbol.initialValue points = .ok value) : symbol.Holds points value := by
  unfold initialValue at h
  split at h
  next literal hsome =>
    obtain ⟨hliteral, htype⟩ := hdeclared.default_isLiteral literal hsome
    obtain hstorage | hstorage := symbol.storage.uniform_or_varying
    · rw [if_neg (by simp [Storage.isVarying, hstorage])] at h
      obtain rfl := Except.ok.inj h
      exact ⟨htype, hliteral.storage_eq.trans hstorage.symm, by rw [hliteral.size_eq, hstorage]; rfl⟩
    · rw [if_pos (by simp [Storage.isVarying, hstorage])] at h
      obtain ⟨-, _, -, rfl⟩ := (Value.broadcast_eq_ok hliteral.storage_eq).mp h
      exact ⟨htype, hstorage.symm, by rw [hstorage]; rfl⟩
  next =>
    obtain ⟨-, rfl⟩ := Value.allocate_eq_ok.mp h
    exact ⟨rfl, rfl, rfl⟩

theorem loadedValue_holds {bound : Option Value} (hdeclared : symbol.IsDeclared)
    (hbound : ∀ value, bound = some value →
      symbol.checkBinding value = .ok () ∧ value.size = value.storage.size points)
    (h : symbol.loadedValue points bound = .ok value) : symbol.Holds points value := by
  cases bound with
  | none => exact initialValue_holds hdeclared h
  | some given =>
    obtain ⟨hcheck, hsize⟩ := hbound given rfl
    obtain ⟨htype, hvarying⟩ := checkBinding_eq_ok.mp hcheck
    unfold loadedValue at h
    dsimp only at h
    split at h
    next hspread =>
      have hstorage : symbol.storage = .varying := by simpa [Storage.isVarying] using hspread.1
      have huniform : given.storage = .uniform := by simpa [Value.isUniform] using hspread.2
      obtain ⟨-, _, -, rfl⟩ := (Value.broadcast_eq_ok huniform).mp h
      exact ⟨htype, hstorage.symm, by rw [hstorage]; rfl⟩
    next hspread =>
      obtain rfl := Except.ok.inj h
      have hstorage : given.storage = symbol.storage := by
        obtain hstorage | hstorage := given.storage.uniform_or_varying
        · obtain hsymbol | hsymbol := symbol.storage.uniform_or_varying
          · rw [hstorage, hsymbol]
          · exact absurd ⟨by simp [Storage.isVarying, hsymbol], by simp [Value.isUniform, hstorage]⟩
              hspread
        · rw [hstorage, hvarying hstorage]
      exact ⟨htype, hstorage, hstorage ▸ hsize⟩

end Symbol

/-- Nothing that a valid grid binds to a symbol is refused. -/
theorem Shader.validate_eq_ok {shader : Shader} {grid : Grid} {u : Unit} :
    shader.validate grid = .ok u ↔ ∀ symbol ∈ shader.symbols.symbols.toList, ∀ value,
      boundValue? grid symbol = some value → symbol.checkBinding value = .ok () := by
  rw [validate, forM_eq_ok]
  refine forall₂_congr fun symbol _ => ?_
  rw [boundValue?]
  cases symbol.isBindable with
  | false => simp
  | true => cases grid.value? symbol.name <;> simp

/-- What a valid grid that is not refused binds to a symbol. -/
theorem Shader.bound_of_validate {shader : Shader} {grid : Grid} {symbol : Symbol} {value : Value}
    (hgrid : grid.IsValid) (hvalid : shader.validate grid = .ok ())
    (hsymbol : symbol ∈ shader.symbols.symbols.toList) (h : boundValue? grid symbol = some value) :
    symbol.checkBinding value = .ok () ∧
      value.size = value.storage.size (grid.width * grid.height) := by
  refine ⟨validate_eq_ok.mp hvalid symbol hsymbol value h, ?_⟩
  unfold boundValue? at h
  split at h
  · exact (hgrid _ value h).1
  · cases h

namespace Machine

variable {σ : Type} {renderer : Renderer σ} {shader : Shader} {machine last : Machine σ}
  {grid after : Grid} {turns : Nat} {outcome : Outcome}

/-- Symbols hold values as declared. -/
def IsAsDeclared (shader : Shader) (machine : Machine σ) : Prop :=
  ∀ (slot : Nat) symbol value, shader.symbols.symbols[slot]? = some symbol →
    machine.registers.symbols[slot]? = some value → symbol.Holds machine.points value

/-- A grid that is not refused loads symbols with values as declared. -/
theorem start_isAsDeclared {loaded first : Machine σ}
    (hdeclared : Declared shader.name shader.constants shader.symbols) (hgrid : grid.IsValid)
    (hvalid : shader.validate grid = .ok ()) (hload : load shader grid machine = .ok loaded)
    (hready : loaded.ready shader = .ok first) : first.IsAsDeclared shader := by
  obtain ⟨-, symbols, hsymbols, rfl⟩ := load_eq_ok.mp hload
  obtain ⟨-, _, _, hcleared, hregisters, rfl⟩ := ready_eq_ok.mp hready
  obtain ⟨-, rfl⟩ := Registers.clearTemporaries_eq_ok.mp hcleared
  obtain ⟨-, rfl⟩ := Registers.clearTemporaries_eq_ok.mp hregisters
  intro slot symbol value hsymbol hvalue
  have hmem := Array.mem_of_getElem? hsymbol
  obtain ⟨value', hvalue', hloaded⟩ := (array_mapM_eq_ok.mp hsymbols).2 slot symbol hsymbol
  obtain rfl := Option.some.inj (hvalue.symm.trans hvalue')
  exact Symbol.loadedValue_holds (hdeclared.isDeclared symbol hmem)
    (fun _ => Shader.bound_of_validate hgrid hvalid (Array.mem_toList_iff.mpr hmem)) hloaded

end Machine

/-! ### What shading in place can do -/

/-- The outcome is one that the caller is told: neither a fault, nor a run that goes on. -/
def Outcome.isReturned : Outcome → Bool
  | .finished | .failed (.error _) => true
  | .failed (.fault _) | .unfinished => false

namespace Machine

variable {σ : Type} {renderer : Renderer σ} {shader : Shader} {machine last : Machine σ}
  {grid after : Grid} {turns : Nat} {outcome : Outcome}

/-- What shading a grid in place comes to when it returns. -/
inductive Shades (renderer : Renderer σ) (shader : Shader) (turns : Nat) (grid : Grid)
    (machine : Machine σ) : Outcome → Machine σ → Grid → Prop
  /-- The grid is refused, and nothing happens. -/
  | refused {error : MachineError} (hvalid : shader.validate grid = .error error) :
      Shades renderer shader turns grid machine (.failed (.error error)) machine grid
  /-- A run comes to its end, and symbols are stored. -/
  | stored {loaded first ran last : Machine σ} {after : Grid} {ended : Outcome}
      {progress : Progress} (hvalid : shader.validate grid = .ok ())
      (hload : load shader grid machine = .ok loaded) (hready : loaded.ready shader = .ok first)
      (hrun : run renderer shader turns first = (ended, ran)) (hended : ended.isReturned = true)
      (hstore : store shader (shader.unbind grid) ran = (progress, last, after)) :
      Shades renderer shader turns grid machine (ended.orFailure progress) last after

/-- What is left of a run that a caller is told of is stored. -/
theorem settle_of_isReturned {ended : Outcome} {ran : Machine σ} (h : ended.isReturned = true) :
    settle shader grid (ended, ran)
      = (ended.orFailure (store shader grid ran).1, (store shader grid ran).2) := by
  rcases hstore : store shader grid ran with ⟨progress, stored⟩
  cases ended with
  | unfinished => cases h
  | finished => cases progress <;> simp only [settle, hstore, Outcome.orFailure]
  | failed failure =>
    cases failure with
    | fault fault => cases h
    | error error => cases progress <;> simp only [settle, hstore, Outcome.orFailure]

/-- What is left of any other run is not. -/
theorem settle_of_not_isReturned {ended : Outcome} {ran : Machine σ} (h : ended.isReturned = false) :
    settle shader grid (ended, ran) = (ended, ran, grid) := by
  cases ended with
  | unfinished => rfl
  | finished => cases h
  | failed failure =>
    cases failure with
    | fault fault => rfl
    | error error => cases h

theorem size_symbols_of_load {loaded : Machine σ} (hload : load shader grid machine = .ok loaded) :
    loaded.registers.symbols.size = shader.symbols.size := by
  obtain ⟨-, symbols, hsymbols, rfl⟩ := load_eq_ok.mp hload
  exact (array_mapM_eq_ok.mp hsymbols).1.symm

theorem size_symbols_of_ready {loaded first : Machine σ}
    (hload : load shader grid machine = .ok loaded) (hready : loaded.ready shader = .ok first) :
    first.registers.symbols.size = shader.symbols.size := by
  have hsize := size_symbols_of_load hload
  obtain ⟨-, _, _, hcleared, hregisters, rfl⟩ := ready_eq_ok.mp hready
  obtain ⟨-, rfl⟩ := Registers.clearTemporaries_eq_ok.mp hcleared
  obtain ⟨-, rfl⟩ := Registers.clearTemporaries_eq_ok.mp hregisters
  exact hsize

theorem shades_of_shadeInPlace
    (h : shadeInPlace renderer shader turns grid machine = (outcome, last, after))
    (hreturned : outcome.isReturned = true) :
    Shades renderer shader turns grid machine outcome last after := by
  cases hvalid : shader.validate grid with
  | error error =>
    rw [shadeInPlace, hvalid] at h
    obtain ⟨rfl, rfl, rfl⟩ := by simpa using h
    exact .refused hvalid
  | ok _ =>
    have hfault : ∀ fault, outcome ≠ .failed (.fault fault) := by
      rintro fault rfl
      cases hreturned
    obtain ⟨loaded, first, hload, hready⟩ := shadeInPlace_starts h hfault hvalid
    rw [shadeInPlace_eq hvalid hload, execute_eq (size_symbols_of_load hload) hready] at h
    rcases hrun : run renderer shader turns first with ⟨ended, ran⟩
    rw [hrun] at h
    cases hended : ended.isReturned with
    | false =>
      rw [settle_of_not_isReturned hended] at h
      obtain ⟨rfl, -⟩ := Prod.mk.inj h
      cases hended.symm.trans hreturned
    | true =>
      rw [settle_of_isReturned hended] at h
      obtain ⟨rfl, hstored⟩ := Prod.mk.inj h
      exact .stored hvalid hload hready hrun hended (Prod.ext rfl hstored)

/-- At the end of a run it is still known which symbols were read from the grid. -/
theorem bound_of_run {loaded first ran : Machine σ} {ended : Outcome}
    (hload : load shader grid machine = .ok loaded) (hready : loaded.ready shader = .ok first)
    (hrun : run renderer shader turns first = (ended, ran)) :
    ran.bound = shader.symbols.symbols.map fun symbol =>
      (Shader.boundValue? grid symbol).isSome := by
  obtain ⟨-, _, -, rfl⟩ := load_eq_ok.mp hload
  obtain ⟨-, _, _, -, -, rfl⟩ := ready_eq_ok.mp hready
  rw [show ran = (ended, ran).2 from rfl, ← hrun]
  refine run_invariant (fun next => next.bound = _) ?_ turns rfl
  rintro machine' next word flow hbound - hstep
  obtain ⟨_, _, last, -, -, hperform, hmoved⟩ := step_eq_ok.mp hstep
  obtain ⟨_, _, _, rfl⟩ := (perform_eq_ok.mp hperform).frame
  obtain ⟨_, rfl⟩ := eq_of_moved hmoved
  exact hbound

end Machine

/-! ### Storing -/

theorem Grid.insert_eq_ok {grid after : Grid} {name : String} {value : Value} :
    grid.insert name value = .ok after ↔ grid.width * grid.height < UInt64.size ∧
      value.size = value.storage.size (grid.width * grid.height) ∧ after = grid.bind name value := by
  by_cases hpoints : grid.width * grid.height < UInt64.size
  · rw [insert_eq hpoints]
    split
    next hsize => simp [hpoints, hsize, eq_comm]
    next hsize => simp [hsize]
  · have hcount : grid.points = .error .tooLarge := by
      rw [points, countPoints, if_neg hpoints]
    rw [insert, hcount]
    simp only [hpoints, false_and, iff_false]
    rintro ⟨⟩

namespace Machine

variable {σ : Type} {machine last : Machine σ} {grid after : Grid} {symbols : List Symbol}
  {symbol : Symbol} {slot n : Nat} {progress : Progress} {name : String} {bound : Array Bool}

/-- The symbol in a slot is stored: it is a global, or was read from the grid. -/
def IsStored (bound : Array Bool) (symbol : Symbol) (slot : Nat) : Prop :=
  symbol.kind = .global ∨ bound.getD slot false = true

theorem mem_storedNames_iff : name ∈ storedNames bound symbols slot ↔
    ∃ (n : Nat) (symbol : Symbol), symbols[n]? = some symbol ∧ IsStored bound symbol (slot + n) ∧
      symbol.name = name := by
  induction symbols generalizing slot with
  | nil => simp [storedNames]
  | cons first symbols ih =>
    have hsplit : name ∈ storedNames bound (first :: symbols) slot ↔
        IsStored bound first slot ∧ first.name = name ∨
          name ∈ storedNames bound symbols (slot + 1) := by
      rw [storedNames]
      by_cases hstored : IsStored bound first slot
      · rw [if_pos (by simpa [IsStored] using hstored), List.mem_cons, eq_comm]
        simp [hstored]
      · rw [if_neg (by simpa [IsStored] using hstored)]
        simp [hstored]
    rw [hsplit, ih]
    constructor
    · rintro (⟨hstored, hname⟩ | ⟨n, symbol, hsymbol, hstored, hname⟩)
      · exact ⟨0, first, rfl, hstored, hname⟩
      · exact ⟨n + 1, symbol, hsymbol, by rwa [Nat.add_right_comm, Nat.add_assoc] at hstored, hname⟩
    · rintro ⟨_ | n, symbol, hsymbol, hstored, hname⟩
      · obtain rfl := Option.some.inj hsymbol
        exact .inl ⟨hstored, hname⟩
      · exact .inr ⟨n, symbol, hsymbol, by rwa [Nat.add_right_comm, Nat.add_assoc], hname⟩

/-- Names that are not stored keep what is bound to them. -/
theorem storeSymbols_elsewhere (h : storeSymbols symbols slot grid machine = (progress, last, after))
    (hname : name ∉ storedNames machine.bound symbols slot) :
    after.value? name = grid.value? name := by
  induction symbols generalizing slot grid machine with
  | nil =>
    obtain ⟨-, -, rfl⟩ := by simpa [storeSymbols] using h
    rfl
  | cons symbol symbols ih =>
    rw [storeSymbols] at h
    rw [storedNames] at hname
    split at h
    next hstored =>
      rw [if_pos hstored, List.mem_cons, not_or] at hname
      split at h
      next =>
        obtain ⟨-, -, rfl⟩ := by simpa using h
        rfl
      next value _ =>
        dsimp only at h
        split at h
        next stored hinsert =>
          obtain ⟨-, -, rfl⟩ := Grid.insert_eq_ok.mp hinsert
          rw [ih h hname.2, Grid.value?_bind, if_neg (Ne.symm hname.1)]
        next =>
          obtain ⟨-, -, rfl⟩ := by simpa using h
          rfl
    next hstored =>
      rw [if_neg hstored] at hname
      exact ih h hname

/-- Once all is stored, a symbol is bound to what its register held. -/
theorem value?_of_storeSymbols (hnames : (symbols.map Symbol.name).Nodup)
    (h : storeSymbols symbols slot grid machine = (.ok (), last, after))
    (hsymbol : symbols[n]? = some symbol) (hstored : IsStored machine.bound symbol (slot + n)) :
    ∃ value, machine.registers.symbols[slot + n]? = some value ∧
      after.value? symbol.name = some value := by
  induction symbols generalizing slot grid machine n with
  | nil => cases hsymbol
  | cons first symbols ih =>
    rw [List.map_cons, List.nodup_cons] at hnames
    rw [storeSymbols] at h
    cases n with
    | zero =>
      obtain rfl := Option.some.inj hsymbol
      rw [if_pos (by simpa [IsStored] using hstored)] at h
      split at h
      next => simp at h
      next value hvalue =>
        dsimp only at h
        split at h
        next stored hinsert =>
          obtain ⟨-, -, rfl⟩ := Grid.insert_eq_ok.mp hinsert
          refine ⟨value, fetch_eq_ok.mp hvalue, ?_⟩
          -- the symbols that are stored later have other names
          have hlater : first.name ∉ storedNames machine.bound symbols (slot + 1) := by
            intro hmem
            obtain ⟨n, symbol, hsymbol, -, hname⟩ := mem_storedNames_iff.mp hmem
            exact hnames.1 (hname ▸ List.mem_map_of_mem (List.mem_of_getElem? hsymbol))
          rw [storeSymbols_elsewhere h hlater, Grid.value?_bind, if_pos rfl]
        next => simp at h
    | succ n =>
      have hslot : slot + (n + 1) = slot + 1 + n := by omega
      rw [hslot] at hstored ⊢
      split at h
      next =>
        split at h
        next => simp at h
        next value hvalue =>
          dsimp only at h
          split at h
          next stored hinsert =>
            obtain ⟨value', hvalue', hafter⟩ := ih hnames.2 h hsymbol hstored
            rw [Array.getElem?_setIfInBounds_ne (by omega)] at hvalue'
            exact ⟨value', hvalue', hafter⟩
          next => simp at h
      next => exact ih hnames.2 h hsymbol hstored

/-- Once all is stored, what was bound before is still bound, and so is what was stored. -/
theorem isSome_of_storeSymbols
    (hname : name ∈ storedNames machine.bound symbols slot ∨ (grid.value? name).isSome = true)
    (h : storeSymbols symbols slot grid machine = (.ok (), last, after)) :
    (after.value? name).isSome = true := by
  induction symbols generalizing slot grid machine with
  | nil =>
    obtain ⟨-, rfl⟩ := by simpa [storeSymbols] using h
    exact hname.resolve_left List.not_mem_nil
  | cons symbol symbols ih =>
    rw [storeSymbols] at h
    rw [storedNames] at hname
    split at h
    next hstored =>
      rw [if_pos hstored, List.mem_cons] at hname
      split at h
      next => simp at h
      next value _ =>
        dsimp only at h
        split at h
        next stored hinsert =>
          obtain ⟨-, -, rfl⟩ := Grid.insert_eq_ok.mp hinsert
          refine ih ?_ h
          rw [Grid.value?_bind]
          obtain (rfl | hlater) | hbound := hname
          · exact .inr (by rw [if_pos rfl]; rfl)
          · exact .inl hlater
          · exact .inr (by split <;> simp_all)
        next => simp at h
    next hstored =>
      rw [if_neg hstored] at hname
      exact ih hname h

/-- Storing fails for no other reason than that the grid refuses a value. -/
theorem grid_of_storeSymbols {error : MachineError}
    (h : storeSymbols symbols slot grid machine = (.error (.error error), last, after)) :
    ∃ cause, error = .grid cause := by
  induction symbols generalizing slot grid machine with
  | nil => simp [storeSymbols] at h
  | cons symbol symbols ih =>
    rw [storeSymbols] at h
    split at h
    next =>
      split at h
      next => simp at h
      next =>
        dsimp only at h
        split at h
        next => exact ih h
        next failure _ =>
          cases failure with
          | fault fault => simp [Failure.ofGrid] at h
          | error cause =>
            obtain ⟨rfl, -⟩ : MachineError.grid cause = error ∧ _ := by
              simpa [Failure.ofGrid] using h
            exact ⟨cause, rfl⟩
    next => exact ih h

/-- Symbols that have all their elements can be stored. -/
theorem storeSymbols_of_fills (hpoints : grid.width * grid.height < UInt64.size)
    (hsize : slot + symbols.length ≤ machine.registers.symbols.size)
    (hfills : ∀ n value, slot ≤ n → machine.registers.symbols[n]? = some value →
      value.size = value.storage.size (grid.width * grid.height)) :
    (storeSymbols symbols slot grid machine).1 = .ok () := by
  induction symbols generalizing slot grid machine with
  | nil => rfl
  | cons symbol symbols ih =>
    rw [List.length_cons] at hsize
    rw [storeSymbols]
    split
    next =>
      have hvalue : machine.registers.symbols[slot]? = some machine.registers.symbols[slot] :=
        Array.getElem?_eq_getElem (by omega)
      rw [fetch_eq_ok.mpr hvalue]
      dsimp only
      rw [Grid.insert_eq_ok.mpr ⟨hpoints, hfills slot _ (Nat.le_refl slot) hvalue, rfl⟩]
      refine ih ?_ ?_ ?_
      · exact hpoints
      · rw [Array.size_setIfInBounds]
        omega
      · intro n value hn hread
        rw [Array.getElem?_setIfInBounds_ne (by omega)] at hread
        exact hfills n value (by omega) hread
    next => exact ih hpoints (by omega) fun n value hn => hfills n value (by omega)

end Machine

/-! ### Elements -/

namespace Machine

variable {σ : Type} {renderer : Renderer σ} {shader : Shader} {constants : Array Value}
  {machine next first last : Machine σ} {instruction : Instruction} {command : Command} {flow : Flow}
  {grid after : Grid}

/-- Every symbol has as many elements as its storage asks for. -/
def Fills (points : Nat) (machine : Machine σ) : Prop :=
  ∀ (slot : Nat) value, machine.registers.symbols[slot]? = some value →
    value.size = value.storage.size points

/-- The command puts the derivative of a register that holds nothing into a symbol. -/
def DerivesNothing (constants : Array Value) (machine : Machine σ) : Command → Prop
  | .call (.derivative _) (.symbol _) arguments => ∃ address, arguments[0]? = some address ∧
      machine.registers.read constants address = .ok Value.empty
  | _ => False

/-- In the run from here, no symbol is given the derivative of a register that holds nothing. -/
def DerivesValues (renderer : Renderer σ) (shader : Shader) (first : Machine σ) : Prop :=
  ∀ machine command, Reaches renderer shader first machine → shader.CommandAt machine.ip command →
    ¬ machine.DerivesNothing shader.constants command

/-- Pointwise commands take no derivatives. -/
theorem not_derivesNothing (h : command.isPointwise = true) :
    ¬ machine.DerivesNothing constants command := by
  unfold DerivesNothing
  split
  next => cases h
  next => exact id

/-- The first argument of a call is what its address holds. -/
theorem read_of_first_argument {function : Builtin} {result : Address} {addresses : List Address}
    {arguments : List Value} {value : Value}
    (h : addresses.zipIdx.mapM (fun (address, n) =>
      machine.argument constants function result addresses n address) = .ok arguments)
    (hvalue : arguments.toArray[0]? = some value) :
    ∃ address, addresses[0]? = some address ∧ machine.registers.read constants address = .ok value := by
  obtain ⟨address, haddress, -⟩ := exists_of_argument h hvalue
  obtain ⟨value', hvalue', hargument⟩ := (mapM_eq_ok.mp h).2 0 (address, 0) (by simp [haddress])
  rw [List.getElem?_toArray] at hvalue
  obtain rfl := Option.some.inj (hvalue.symm.trans hvalue')
  refine ⟨address, haddress, ?_⟩
  change machine.argument constants function result addresses 0 address = _ at hargument
  rw [argument, List.take_zero] at hargument
  simpa using hargument

/-- What a symbol is offered has all its elements, unless it is the derivative of nothing. -/
theorem Offers.fills {scene : Scene} {slot : Nat} {value : Value} (hover : machine.Over points)
    (hconstants : Value.AllOver points constants)
    (hcount : command.PassesNoMore)
    (h : Offers scene constants machine slot command value) :
    value.size = value.storage.size points ∨ machine.DerivesNothing constants command := by
  cases h with
  | compute _ _ hfits =>
    obtain ⟨-, hstorage, hsize⟩ := Value.fits_iff.mp hfits
    exact .inl (by rw [hsize, hstorage, hover.points_eq])
  | @call function addresses arguments mask _ harguments _ hrun =>
    have hpoints : (Setting.mk scene machine.width machine.height mask).points = points :=
      hover.points_eq
    have hlength : arguments.toArray.size ≤ function.arity.2 := by
      have hsame := (mapM_eq_ok.mp harguments).1
      rw [List.length_zipIdx] at hsame
      rw [List.size_toArray, ← hsame]
      exact hcount
    have hallover := arguments_over hover.registers hconstants harguments
    rw [← hpoints] at hallover
    obtain hsize | ⟨direction, rfl, hempty⟩ := (Builtin.run_returns hlength hallover hrun).size_eq
    · exact .inl (hpoints ▸ hsize)
    · exact .inr (read_of_first_argument harguments hempty)

/-- **Elements.**  A command leaves every symbol with all its elements, unless it puts the derivative of
    nothing into one. -/
theorem Performed.fills (hrenderer : renderer.OnlyWritesFloats)
    (hconstants : Value.AllOver points shader.constants) (hover : machine.Over points)
    (hcount : command.PassesNoMore)
    (hderives : ¬ machine.DerivesNothing shader.constants command) (hfills : machine.Fills points)
    (h : Performed renderer shader instruction machine command flow next) : next.Fills points := by
  intro slot value hvalue
  obtain ⟨old, hold, hchange⟩ := h.exists_change hrenderer hvalue
  cases hchange with
  | floats => exact hfills slot old hold
  | result hoffers => exact (hoffers.fills hover hconstants hcount).resolve_right hderives
  | assigned _ hsize => exact hover.points_eq ▸ hsize
  | output _ hfits =>
    obtain ⟨-, hstorage, hsize⟩ := Value.fits_iff.mp hfits
    rw [hsize, hstorage, hover.points_eq]
    rfl

/-- A turn that a run goes on after performs the command at the machine's offset. -/
theorem performed_of_turn (h : turn renderer shader machine = .on next) :
    ∃ instruction command flow last offset, shader.CommandAt machine.ip command ∧
      command.PassesNoMore ∧
      Performed renderer shader instruction { machine with executed := machine.executed + 1 } command
        flow last ∧ next = { last with ip := offset } := by
  obtain ⟨word, flow, hword, -, hstep, -⟩ := turn_eq_on.mp h
  obtain ⟨instruction, command, last, hinstruction, hdecode, hperform, hmoved⟩ := step_eq_ok.mp hstep
  obtain ⟨offset, hnext⟩ := eq_of_moved hmoved
  exact ⟨instruction, command, flow, last, offset, ⟨word, instruction, hword, hinstruction, hdecode⟩,
    Command.passesNoMore_of_decode hdecode, perform_eq_ok.mp hperform, hnext⟩

/-- **Runs.**  In a run that derives values only, every symbol keeps all its elements. -/
theorem Reaches.fills (hrenderer : renderer.OnlyWritesFloats)
    (hconstants : Value.AllOver points shader.constants) (hover : first.Over points)
    (hfills : first.Fills points) (hderives : DerivesValues renderer shader first)
    (h : Reaches renderer shader first machine) : machine.Over points ∧ machine.Fills points := by
  induction h with
  | start => exact ⟨hover, hfills⟩
  | turn before hturn ih =>
    obtain ⟨_, command, _, last, _, hcommand, hcount, hperformed, rfl⟩ := performed_of_turn hturn
    obtain ⟨hover, hfills⟩ := ih
    have hlast := hperformed.over hrenderer hconstants hover.counted
    have hvalues := hderives _ command before hcommand
    have hnext := hperformed.fills hrenderer hconstants hover.counted hcount hvalues hfills
    exact ⟨⟨hlast.points_eq, hlast.masks, hlast.registers⟩, hnext⟩

/-- Symbols as declared have all their elements. -/
theorem IsAsDeclared.fills (h : machine.IsAsDeclared shader)
    (hsize : machine.registers.symbols.size = shader.symbols.size) : machine.Fills machine.points := by
  intro slot value hvalue
  have hlt : slot < shader.symbols.symbols.size := by
    have hslot := (Array.getElem?_eq_some_iff.mp hvalue).1
    rw [hsize] at hslot
    exact hslot
  have hholds := h slot _ value (Array.getElem?_eq_getElem hlt) hvalue
  rw [hholds.size_eq, hholds.storage_eq]

/-- A run over a valid grid that derives values only ends with all symbols, each with all its
    elements. -/
theorem fills_of_run {loaded ran : Machine σ} {ended : Outcome} {turns : Nat}
    (hdeclared : Declared shader.name shader.constants shader.symbols) (hgrid : grid.IsValid)
    (hrenderer : renderer.OnlyWritesFloats) (hvalid : shader.validate grid = .ok ())
    (hload : load shader grid machine = .ok loaded) (hready : loaded.ready shader = .ok first)
    (hderives : DerivesValues renderer shader first)
    (hrun : run renderer shader turns first = (ended, ran)) :
    ran.registers.symbols.size = shader.symbols.size ∧ ran.Fills (grid.width * grid.height) := by
  obtain ⟨-, hover, -⟩ := start_over hgrid hdeclared hload hready
  have hfirst := size_symbols_of_ready hload hready
  have hfills : first.Fills (grid.width * grid.height) :=
    hover.points_eq ▸ (start_isAsDeclared hdeclared hgrid hvalid hload hready).fills hfirst
  obtain ⟨reached, hreaches, hregisters⟩ := run_reaches renderer shader turns first
  have hreached := (hreaches.fills hrenderer hdeclared.allOver hover hfills hderives).2
  have hsymbols := (@run_keeps _ renderer shader first turns hrenderer.keepsCount).1
  rw [hrun] at hregisters hsymbols
  refine ⟨hsymbols.trans hfirst, fun slot value hvalue => hreached slot value ?_⟩
  rwa [← hregisters]

theorem store_of_fills (hpoints : grid.width * grid.height < UInt64.size)
    (hsize : machine.registers.symbols.size = shader.symbols.size)
    (hfills : machine.Fills (grid.width * grid.height)) :
    (store shader (shader.unbind grid) machine).1 = .ok () := by
  obtain ⟨hwidth, hheight⟩ := @Shader.unbind_dimensions shader grid
  rw [← hwidth, ← hheight] at hpoints hfills
  refine storeSymbols_of_fills hpoints (Nat.le_of_eq ?_) fun n value _ => hfills n value
  rw [Nat.zero_add, Array.length_toList, hsize]
  rfl

/-- Only globals and what was read from the grid are stored, and both can be bound. -/
theorem isBindable_of_isStored {symbol : Symbol} {bound : Array Bool} {n : Nat}
    (hbound : bound = shader.symbols.symbols.map fun symbol =>
      (Shader.boundValue? grid symbol).isSome)
    (hsymbol : shader.symbols.symbols.toList[n]? = some symbol) (h : IsStored bound symbol n) :
    symbol.isBindable = true := by
  rw [Array.getElem?_toList] at hsymbol
  obtain hglobal | hread := h
  · simp [Symbol.isBindable, hglobal]
  · have hsome : (Shader.boundValue? grid symbol).isSome = true := by
      simpa [hbound, hsymbol] using hread
    unfold Shader.boundValue? at hsome
    split at hsome
    next hbindable => exact hbindable
    next => cases hsome

theorem mem_of_mem_storedNames {name : String} {bound : Array Bool}
    (hbound : bound = shader.symbols.symbols.map fun symbol =>
      (Shader.boundValue? grid symbol).isSome)
    (h : name ∈ storedNames bound shader.symbols.symbols.toList 0) :
    ∃ symbol ∈ shader.symbols.symbols.toList, symbol.isBindable = true ∧ symbol.name = name := by
  obtain ⟨n, symbol, hsymbol, hstored, hname⟩ := mem_storedNames_iff.mp h
  rw [Nat.zero_add] at hstored
  exact ⟨symbol, List.mem_of_getElem? hsymbol, isBindable_of_isStored hbound hsymbol hstored, hname⟩

/-- **Bindings.**  Let a text describe a shader.  Shading a valid grid in place, if it returns, leaves
    names alone that no global or parameter has, and every name stays bound unless the grid refuses
    to take a value back.  It refuses none as long as the renderer does no more than overwrite floats
    and no symbol is given the derivative of a register that holds nothing. -/
theorem shadeInPlace_keeps_bindings {text : String} {turns : Nat} {outcome : Outcome}
    (hassemble : assemble text = .ok shader) (hgrid : grid.IsValid)
    (h : shadeInPlace renderer shader turns grid machine = (outcome, last, after))
    (hreturned : outcome.isReturned = true) :
    (∀ name, (∀ symbol ∈ shader.symbols.symbols.toList, symbol.isBindable = true →
        symbol.name ≠ name) → after.value? name = grid.value? name) ∧
      ((∀ error, outcome ≠ .failed (.error (.grid error))) →
        ∀ name, (grid.value? name).isSome = true → (after.value? name).isSome = true) ∧
      (renderer.OnlyWritesFloats →
        (∀ loaded first, load shader grid machine = .ok loaded → loaded.ready shader = .ok first →
          DerivesValues renderer shader first) →
        ∀ error, outcome ≠ .failed (.error (.grid error))) := by
  cases shades_of_shadeInPlace h hreturned with
  | refused hvalid =>
    refine ⟨fun _ _ => rfl, fun _ _ hname => hname, fun _ _ error hgrid => ?_⟩
    obtain rfl : _ = MachineError.grid error := by simpa using hgrid
    cases validate_isMismatch hvalid
  | @stored loaded first ran _ _ ended progress hvalid hload hready hrun hended hstore =>
    have hbound := bound_of_run hload hready hrun
    refine ⟨fun name hother => ?_, fun hkept name hname => ?_, fun hrenderer hderives error => ?_⟩
    · rw [storeSymbols_elsewhere hstore, Shader.value?_unbind, if_neg]
      · rintro ⟨symbol, hsymbol, hbindable, hname⟩
        exact hother symbol hsymbol hbindable hname
      · intro hmem
        obtain ⟨symbol, hsymbol, hbindable, hname⟩ := mem_of_mem_storedNames hbound hmem
        exact hother symbol hsymbol hbindable hname
    · cases progress with
      | ok _ =>
        refine isSome_of_storeSymbols ?_ hstore
        obtain hmem | hsame := mem_storedNames_of_unbind name hbound
        · exact .inl hmem
        · exact .inr (hsame ▸ hname)
      | error failure =>
        cases failure with
        | fault fault => cases hreturned
        | error error =>
          obtain ⟨cause, rfl⟩ := grid_of_storeSymbols hstore
          exact absurd rfl (hkept cause)
    · obtain ⟨hsize, hfills⟩ := fills_of_run (assemble_declared hassemble) hgrid hrenderer hvalid hload
        hready (hderives loaded first hload hready) hrun
      have hdone := store_of_fills (load_eq_ok.mp hload).1 hsize hfills
      rw [hstore] at hdone
      obtain rfl : progress = .ok () := hdone
      rintro rfl
      obtain ⟨limit, hlimit⟩ := run_error (congrArg Prod.fst hrun)
      cases hlimit

theorem shadeInPlace_keeps_bindings_doubleWhereSet :
    (shadeInPlace (.ofScene .still) doubleWhereSet 10 twoPoints idle).1 = .finished ∧
      (twoPoints.value? "x").isSome = true ∧
      ((shadeInPlace (.ofScene .still) doubleWhereSet 10 twoPoints idle).2.2.value? "x").isSome = true ∧
      ∀ name, "x" ≠ name →
        (shadeInPlace (.ofScene .still) doubleWhereSet 10 twoPoints idle).2.2.value? name
          = twoPoints.value? name := by
  have hassemble : assemble ".global varying float x
generate_mask @x
add_assign.v1v1 @x, @x
clear_mask" = .ok doubleWhereSet := by
    with_unfolding_all rfl
  have hfinished : (shadeInPlace (.ofScene .still) doubleWhereSet 10 twoPoints idle).1
      = .finished := by
    decide +kernel
  rcases hshaded : shadeInPlace (.ofScene .still) doubleWhereSet 10 twoPoints idle with
    ⟨outcome, last, after⟩
  rw [hshaded] at hfinished
  obtain rfl : outcome = .finished := hfinished
  obtain ⟨hother, hkept, hrefuses⟩ :=
    shadeInPlace_keeps_bindings hassemble twoPoints_isValid hshaded rfl
  have hx : (twoPoints.value? "x").isSome = true := by decide +kernel
  refine ⟨rfl, hx, hkept (hrefuses (Renderer.ofScene_onlyWritesFloats _) ?_) "x" hx,
    fun name hname => hother name fun symbol hsymbol _ => ?_⟩
  · rintro - - - - machine command - hcommand
    exact not_derivesNothing (commandAt_doubleWhereSet hcommand).1
  · obtain rfl : symbol = ⟨"x", .global, .float, .varying, none⟩ := by
      simpa [doubleWhereSet] using hsymbol
    exact hname

/-- A shader that gives its only symbol the derivative of a temporary that holds nothing. -/
def slopeOfNothing (kind : SymbolKind) : Shader where
  kind := .surface
  name := "main"
  code := #[28, 20, 0x40000000, 1, 0x80000000]
  constants := #[]
  symbols := ⟨#[⟨"x", kind, .float, .uniform, none⟩]⟩
  temporaries := 1

/-- A grid of one point. -/
def onePoint : Grid := ⟨1, 1, ⟨[("x", .uniformFloat 1)]⟩⟩

/-- The symbol is left without an element, so the grid refuses it, and its value is lost. -/
theorem slopeOfNothing_loses_binding :
    assemble ".global uniform float x
call du @x, %0" = .ok (slopeOfNothing .global) ∧
      (shadeInPlace (.ofScene .still) (slopeOfNothing .global) 10 onePoint idle).1
        = .failed (.error (.grid (.sizeMismatch "x" 1 0))) ∧
      (onePoint.value? "x").isSome = true ∧
      ((shadeInPlace (.ofScene .still) (slopeOfNothing .global) 10 onePoint idle).2.2.value? "x").isSome
        = false := by
  refine ⟨?_, by decide +kernel, by decide +kernel, by decide +kernel⟩
  with_unfolding_all rfl

end Machine

end Shading
