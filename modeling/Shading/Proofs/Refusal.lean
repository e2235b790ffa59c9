import Shading.Proofs.Conformance

namespace Shading

/-!
# Preparing a grid stops at the first symbol that is refused

Preparing a grid goes through the symbols in the order of their declaration, binding those that the
grid lacks and checking the others.  If it comes to the end, the grid is prepared for good.  If it
does not, the globals and parameters before the one that is refused have been bound already: the grid
is left as it was only if it had bound them all.

* `Shader.StopsAt` — what is left when preparing stops at a symbol;
* `Shader.prepare_completes_or_stops` — the two ways for it to end;
* `Shader.grey_left_half_prepared` — a grid that is refused and not left as it was.
-/

namespace Shader

variable {shader : Shader} {grid rest : Grid} {symbol : Symbol} {symbols : List Symbol}
  {error : MachineError}

/-- What preparing does with one symbol: it goes on with the others, it stops because the grid binds
    the symbol to what does not suit it, or it stops for want of room. -/
theorem prepareSymbols_cons_cases (grid : Grid) (hdeclared : symbol.IsDeclared) :
    (∃ next, ∀ symbols, prepareSymbols (symbol :: symbols) grid = prepareSymbols symbols next) ∨
    (∃ value error, symbol.isBindable = true ∧ grid.value? symbol.name = some value ∧
      symbol.checkBinding value = .error error ∧
      ∀ symbols, prepareSymbols (symbol :: symbols) grid = (.error (.error error), grid)) ∨
    ∀ symbols, prepareSymbols (symbol :: symbols) grid = (.error (.fault .tooLarge), grid) := by
  simp only [prepareSymbols]
  cases hbindable : symbol.isBindable with
  | false => exact .inl ⟨grid, fun _ => rfl⟩
  | true =>
    simp only [if_true]
    cases hvalue : grid.value? symbol.name with
    | some value =>
      cases hcheck : symbol.checkBinding value with
      | ok _ => exact .inl ⟨grid, fun _ => by simp only [hcheck]⟩
      | error error =>
        exact .inr (.inl ⟨value, error, trivial, rfl, hcheck, fun _ => by simp only [hcheck]⟩)
    | none =>
      obtain ⟨value, -, hbind⟩ | ⟨hfault, -⟩ := @bindInitial_cases grid symbol hdeclared
      · exact .inl ⟨grid.bind symbol.name value, fun _ => by simp only [hbind]⟩
      · exact .inr (.inr fun _ => by simp only [hfault]; rfl)

/-- If preparing stops with an error, the symbols before are dealt with and the next one is refused. -/
theorem exists_refused (hdeclared : ∀ symbol ∈ symbols, symbol.IsDeclared)
    (h : prepareSymbols symbols grid = (.error (.error error), rest)) :
    ∃ before refused after, symbols = before ++ refused :: after ∧
      prepareSymbols before grid = (.ok (), rest) ∧ refused.isBindable = true ∧
      ∃ value, rest.value? refused.name = some value ∧
        refused.checkBinding value = .error error := by
  induction symbols generalizing grid with
  | nil => cases h
  | cons symbol symbols ih =>
    obtain ⟨hsymbol, hdeclared⟩ := List.forall_mem_cons.mp hdeclared
    obtain ⟨next, hnext⟩ | ⟨value, cause, hbindable, hvalue, hcheck, hstop⟩ | hstop :=
      prepareSymbols_cons_cases grid hsymbol
    · rw [hnext] at h
      obtain ⟨before, refused, after, rfl, hbefore, hrefused⟩ := ih hdeclared h
      exact ⟨symbol :: before, refused, after, rfl, (hnext before).trans hbefore, hrefused⟩
    · rw [hstop] at h
      cases h
      exact ⟨[], symbol, symbols, rfl, rfl, hbindable, value, hvalue, hcheck⟩
    · rw [hstop] at h
      cases h

/-- Preparing a grid has stopped at a symbol, with an error: the symbols before it are prepared, and
    what the grid binds to it does not suit it. -/
structure StopsAt (before : List Symbol) (refused : Symbol) (grid : Grid) (error : MachineError)
    (rest : Grid) : Prop where
  isBindable : refused.isBindable = true
  refuses : ∃ value, grid.value? refused.name = some value ∧
    refused.checkBinding value = .error error
  accepts : ∀ symbol ∈ before, checkBound grid symbol = .ok ()
  prepares : Prepares before grid rest
  /-- The grid is as it was exactly if it bound all globals and parameters before. -/
  unchanged : rest = grid ↔ ∀ symbol ∈ before, symbol.isBindable = true →
    (grid.value? symbol.name).isSome = true

theorem stopsAt_of_prepareSymbols {before after : List Symbol} {refused : Symbol} {value : Value}
    (hdeclared : ∀ symbol ∈ before, symbol.IsDeclared)
    (hnames : ((before ++ refused :: after).map Symbol.name).Nodup)
    (hbefore : prepareSymbols before grid = (.ok (), rest)) (hbindable : refused.isBindable = true)
    (hvalue : rest.value? refused.name = some value)
    (hcheck : refused.checkBinding value = .error error) :
    StopsAt before refused grid error rest := by
  rw [List.map_append, List.map_cons] at hnames
  have hattempts := @prepareSymbols_attempts grid before hdeclared
    (List.Nodup.of_append_left hnames)
  rw [hbefore] at hattempts
  cases hattempts with
  | prepared hchecked hprepares =>
    have haccepts : ∀ symbol ∈ before, checkBound grid symbol = .ok () := forM_eq_ok.mp hchecked
    refine ⟨hbindable, ⟨value, ?_, hcheck⟩, haccepts, hprepares, ?_, ?_⟩
    · -- the symbol has a name of its own, so it is bound to what it was
      rw [← hprepares.others refused.name, hvalue]
      intro symbol hsymbol _ hname
      exact List.disjoint_of_nodup_append hnames (List.mem_map_of_mem hsymbol)
        (hname ▸ List.mem_cons_self)
    · rintro rfl symbol hsymbol hbindable
      refine Option.isSome_iff_ne_none.mpr fun hnone => ?_
      obtain ⟨_, -, hinitial⟩ := hprepares.initial symbol hsymbol hbindable hnone
      simp [hnone] at hinitial
    · intro hbound
      have hsame : prepareSymbols before grid = (.ok (), grid) := by
        refine prepareSymbols_of_bound fun symbol hsymbol hbindable => ?_
        obtain ⟨bound, hsome⟩ := Option.isSome_iff_exists.mp (hbound symbol hsymbol hbindable)
        have hsuits := haccepts symbol hsymbol
        rw [checkBound, hbindable, hsome] at hsuits
        exact ⟨bound, hsome, hsuits⟩
      exact (Prod.mk.inj (hbefore.symm.trans hsame)).2

/-- **Preparing a grid.**  Let a text describe a shader.  If a grid is prepared for it, all that was
    bound before stays as it is, all globals and parameters are bound, and preparing the grid once more
    changes nothing.  If it is refused, preparing has stopped at a symbol, and the globals and
    parameters declared before it are bound all the same. -/
theorem prepare_completes_or_stops {text : String} (hassemble : assemble text = .ok shader)
    (grid : Grid) :
    (∀ prepared, shader.prepare grid = (.ok (), prepared) →
      (∀ name value, grid.value? name = some value → prepared.value? name = some value) ∧
      (∀ symbol ∈ shader.symbols.symbols.toList, symbol.isBindable = true →
        (prepared.value? symbol.name).isSome = true) ∧
      shader.prepare prepared = (.ok (), prepared)) ∧
    ∀ error rest, shader.prepare grid = (.error (.error error), rest) →
      error.isMismatch = true ∧ ∃ before refused after,
        shader.symbols.symbols.toList = before ++ refused :: after ∧
        StopsAt before refused grid error rest := by
  have hdeclared := assemble_declared hassemble
  have hsymbols : ∀ symbol ∈ shader.symbols.symbols.toList, symbol.IsDeclared := fun symbol hsymbol =>
    hdeclared.isDeclared symbol (Array.mem_toList_iff.mp hsymbol)
  refine ⟨fun prepared hprepare => ?_, fun error rest hprepare => ⟨?_, ?_⟩⟩
  · obtain ⟨hvalid, hprepares⟩ := prepares_of_prepare hdeclared hprepare
    have hsuits := validate_eq_ok.mp (validate_prepared hdeclared hprepares hvalid)
    have hbound : ∀ symbol ∈ shader.symbols.symbols.toList, symbol.isBindable = true →
        ∃ value, prepared.value? symbol.name = some value ∧ symbol.checkBinding value = .ok () := by
      intro symbol hsymbol hbindable
      have hfound : boundValue? prepared symbol = prepared.value? symbol.name := if_pos hbindable
      obtain ⟨value, -, hvalue⟩ | ⟨-, value, -, -, hvalue⟩ :=
        boundValue?_prepared hdeclared hprepares hsymbol hbindable <;>
      exact ⟨value, hfound.symm.trans hvalue, hsuits symbol hsymbol value hvalue⟩
    refine ⟨hprepares.keeps, fun symbol hsymbol hbindable => ?_, prepareSymbols_of_bound hbound⟩
    obtain ⟨value, hvalue, -⟩ := hbound symbol hsymbol hbindable
    rw [hvalue, Option.isSome_some]
  · have hattempts := prepare_attempts hdeclared grid
    rw [hprepare] at hattempts
    cases hattempts with
    | refused hcheck => exact Machine.validate_isMismatch hcheck
  · obtain ⟨before, refused, after, hsplit, hbefore, hbindable, value, hvalue, hcheck⟩ :=
      exists_refused hsymbols hprepare
    have hnames : ((before ++ refused :: after).map Symbol.name).Nodup := hsplit ▸ hdeclared.distinct
    exact ⟨before, refused, after, hsplit, stopsAt_of_prepareSymbols (fun symbol hsymbol =>
      hsymbols symbol (hsplit ▸ List.mem_append_left _ hsymbol)) hnames hbefore hbindable hvalue hcheck⟩

/-- A grid of one point that binds the second symbol of `grey` to a varying value. -/
def varyingWeight : Grid := ⟨1, 1, ⟨[("k", .varyingFloat #[1])]⟩⟩

theorem varyingWeight_isValid : varyingWeight.IsValid := by
  intro name value hvalue
  by_cases hname : "k" = name
  · obtain rfl : Value.varyingFloat #[1] = value := by
      simpa [varyingWeight, Grid.value?, NameMap.find?, NameMap.findIn, hname] using hvalue
    exact ⟨rfl, rfl⟩
  · simp [varyingWeight, Grid.value?, NameMap.find?, NameMap.findIn, hname] at hvalue

/-- One grid is prepared, and another one refused at the second symbol. -/
theorem prepare_completes_or_stops_grey :
    (∃ prepared, grey.prepare Machine.twoPoints = (.ok (), prepared) ∧
      (∀ name value, Machine.twoPoints.value? name = some value → prepared.value? name = some value) ∧
      (∀ symbol ∈ grey.symbols.symbols.toList, symbol.isBindable = true →
        (prepared.value? symbol.name).isSome = true) ∧
      grey.prepare prepared = (.ok (), prepared)) ∧
    ∃ rest, grey.prepare varyingWeight
        = (.error (.error (.storageMismatch "k" .uniform .varying)), rest) ∧
      ∃ before refused after, grey.symbols.symbols.toList = before ++ refused :: after ∧
        StopsAt before refused varyingWeight (.storageMismatch "k" .uniform .varying) rest := by
  have hprepared : (grey.prepare Machine.twoPoints).1 = .ok () := by with_unfolding_all rfl
  have hrefused : (grey.prepare varyingWeight).1
      = .error (.error (.storageMismatch "k" .uniform .varying)) := by
    with_unfolding_all rfl
  have hrest : grey.prepare varyingWeight = (_, (grey.prepare varyingWeight).2) := Prod.ext hrefused rfl
  exact ⟨⟨_, Prod.ext hprepared rfl,
      (prepare_completes_or_stops assemble_greyText Machine.twoPoints).1 _ (Prod.ext hprepared rfl)⟩,
    _, hrest, ((prepare_completes_or_stops assemble_greyText varyingWeight).2 _ _ hrest).2⟩

/-- The second symbol is refused, but the first one, which the grid did not bind, is bound. -/
theorem grey_left_half_prepared : assemble greyText = .ok grey ∧ varyingWeight.IsValid ∧
    (grey.prepare varyingWeight).1
      = .error (.error (.storageMismatch "k" .uniform .varying)) ∧
    varyingWeight.contains "c" = false ∧ (grey.prepare varyingWeight).2.contains "c" = true := by
  refine ⟨assemble_greyText, varyingWeight_isValid, ?_, by decide +kernel, by decide +kernel⟩
  with_unfolding_all rfl

end Shader

end Shading
