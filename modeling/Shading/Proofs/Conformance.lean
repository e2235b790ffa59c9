import Shading.Proofs.Preparation

namespace Shading

/-!
# Symbols stay as declared

A run starts with values of the declared types and storages in all symbols.  A varying symbol keeps its
type whatever it takes, but a uniform one takes a result as it is, of whatever type, and an output of
`fresnel` becomes a varying float whatever it was.  So symbols stay as declared exactly as long as
results and outputs suit the declarations.  What is stored then can be shaded again.

* `Machine.Respects` — commands that suit the declarations of the symbols they write;
* `Machine.KeepsDeclarations` — runs of such commands;
* `Machine.Performed.isAsDeclared`, `Machine.Performed.respects` — they are those that leave symbols as
  declared;
* `Machine.symbols_stay_as_declared` — runs, and what can be done with the grid afterwards.
-/

/-- A symbol that holds a value as declared is not empty. -/
theorem Symbol.Holds.isEmpty_eq {symbol : Symbol} {points : Nat} {value : Value}
    (h : symbol.Holds points value) (hpoints : 0 < points) : value.isEmpty = false := by
  rw [Value.isEmpty, h.size_eq, beq_eq_false_iff_ne]
  cases symbol.storage with
  | uniform => exact Nat.one_ne_zero
  | varying => exact Nat.ne_of_gt hpoints

/-- The command at an offset is the only one there. -/
theorem Shader.CommandAt.unique {shader : Shader} {ip : Nat} {command command' : Command}
    (h : shader.CommandAt ip command) (h' : shader.CommandAt ip command') : command = command' := by
  obtain ⟨word, instruction, hword, hinstruction, hcommand⟩ := h
  obtain ⟨word', instruction', hword', hinstruction', hcommand'⟩ := h'
  obtain rfl := Option.some.inj (hword.symm.trans hword')
  obtain rfl := Except.ok.inj (hinstruction.symm.trans hinstruction')
  exact Except.ok.inj (hcommand.symm.trans hcommand')

/-! ### Commands -/

namespace Machine

variable {σ : Type} {renderer : Renderer σ} {shader : Shader} {constants : Array Value}
  {machine next : Machine σ} {instruction : Instruction} {command : Command} {flow : Flow}
  {slot : Nat} {scene : Scene}

/-- What the command computes for uniform symbols is of their types and has an element, and the
    symbols among the outputs of `fresnel` are declared varying floats. -/
structure Respects (scene : Scene) (shader : Shader) (machine : Machine σ) (command : Command) :
    Prop where
  results : ∀ (slot : Nat) symbol value, shader.symbols.symbols[slot]? = some symbol →
    symbol.storage = .uniform → machine.Offers scene shader.constants slot command value →
    value.type = symbol.type ∧ value.size = 1
  outputs : ∀ (slot : Nat) symbol, shader.symbols.symbols[slot]? = some symbol →
    command.outputsTo slot = true → symbol.type = .float ∧ symbol.storage = .varying

/-- **Commands.**  A command that respects the declarations leaves symbols as declared. -/
theorem Performed.isAsDeclared (h : Performed renderer shader instruction machine command flow next)
    (hrenderer : renderer.OnlyWritesFloats) (hpoints : 0 < machine.points)
    (hmachine : machine.IsAsDeclared shader)
    (hrespects : machine.Respects renderer.scene shader command) : next.IsAsDeclared shader := by
  intro slot symbol value hsymbol hvalue
  obtain ⟨old, hold, hchange⟩ := h.exists_change hrenderer hvalue
  have hholds := hmachine slot symbol old hsymbol hold
  have hempty := hholds.isEmpty_eq hpoints
  have hsame : next.points = machine.points := by
    obtain ⟨_, _, _, rfl⟩ := h.frame
    rfl
  rw [hsame]
  cases hchange with
  | floats => exact ⟨hholds.type_eq, hholds.storage_eq, hholds.size_eq⟩
  | result hoffers htakes =>
    obtain hnothing | ⟨huniform, hstorage⟩ := htakes
    · simp [hempty] at hnothing
    · have hsymbolStorage : symbol.storage = .uniform := hholds.storage_eq ▸ huniform
      obtain ⟨htype, hsize⟩ := hrespects.results slot symbol value hsymbol hsymbolStorage hoffers
      exact ⟨htype, hstorage.trans hsymbolStorage.symm, by rw [hsize, hsymbolStorage]; rfl⟩
  | assigned hnothing => simp [hempty] at hnothing
  | output houtputs hfits =>
    obtain ⟨htype, hstorage⟩ := hrespects.outputs slot symbol hsymbol houtputs
    obtain ⟨hfloat, hvarying, hsize⟩ := Value.fits_iff.mp hfits
    exact ⟨hfloat.trans htype.symm, hvarying.trans hstorage.symm, by rw [hsize, hstorage]; rfl⟩

/-- A uniform symbol takes a result as it is. -/
theorem eq_of_commit {registers : Registers} {old value : Value}
    (hold : machine.registers.symbols[slot]? = some old) (hempty : old.isEmpty = false)
    (hstorage : old.storage = .uniform)
    (h : machine.registers.commit machine.masks machine.points (.symbol slot) value = .ok registers) :
    registers.symbols[slot]? = some value := by
  obtain ⟨target, taken, htarget, htakes, rfl⟩ := Registers.commit_symbol_eq_ok.mp h
  obtain rfl := Option.some.inj (htarget.symm.trans hold)
  have hlt := (Array.getElem?_eq_some_iff.mp htarget).1
  cases htakes with
  | empty hnothing => simp [hempty] at hnothing
  | uniform => simp [hlt]
  | varying _ _ _ _ hvarying => simp [hstorage] at hvarying

/-- A symbol ends up with what is put back into it first. -/
theorem symbol_of_restore {function : Builtin} {result : Address} {addresses : List Address}
    {values : Array Value} {registers : Registers} {n : Nat} (hvoid : function.isVoid = true)
    (haddress : addresses[n]? = some (.symbol slot))
    (hfirst : Address.symbol slot ∉ addresses.take n)
    (h : machine.restore function result addresses values = .ok registers) :
    ∃ value, values[n]? = some value ∧ registers.symbols[slot]? = some value := by
  obtain ⟨hn, hget⟩ := List.getElem?_eq_some_iff.mp haddress
  have hsplit : addresses.zipIdx = (addresses.take n).zipIdx ++
      (.symbol slot, n) :: (addresses.drop (n + 1)).zipIdx (n + 1) := by
    conv => lhs; rw [← List.take_append_drop n addresses, List.drop_eq_getElem_cons hn, hget]
    rw [List.zipIdx_append, List.zipIdx_cons, List.length_take_of_le (Nat.le_of_lt hn), Nat.zero_add]
  rw [restore, hsplit, List.foldlM_append, bind_eq_ok] at h
  obtain ⟨before, -, h⟩ := h
  rw [List.foldlM_cons, bind_eq_ok] at h
  obtain ⟨middle, hmiddle, hrest⟩ := h
  dsimp only at hmiddle
  rw [if_neg (by simpa [isCopied, hvoid, Address.isConstant] using hfirst), bind_eq_ok] at hmiddle
  obtain ⟨value, hvalue, hput⟩ := hmiddle
  obtain ⟨hlt, rfl⟩ := Registers.put_symbol.mp hput
  refine ⟨value, fetch_eq_ok.mp hvalue, foldlM_invariant
    (fun registers => registers.symbols[slot]? = some value) (by simp [hlt]) ?_ hrest⟩
  rintro registers ⟨address, m⟩ after hmem hregisters hstep
  have hm : n + 1 ≤ m := (List.mk_mem_zipIdx_iff_le_and_getElem?_sub.mp hmem).1
  dsimp only at hstep
  split at hstep
  next =>
    obtain rfl := pure_eq_ok.mp hstep
    exact hregisters
  next hlater =>
    obtain ⟨left, -, hput⟩ := bind_eq_ok.mp hstep
    -- the symbol is among the addresses before the later ones
    have hne : Address.symbol slot ≠ address := by
      rintro rfl
      refine hlater (Bool.or_eq_true_iff.mpr (.inr (List.contains_iff_mem.mpr ?_)))
      exact List.mem_take_iff_getElem.mpr ⟨n, by omega, hget⟩
    have hread := @Registers.read_put _ _ _ _ #[] hput (.symbol slot)
    rw [if_neg hne] at hread
    exact fetch_eq_ok.mp (hread.trans (fetch_eq_ok.mpr hregisters))

/-- What a uniform symbol is offered is of the type and size of what it holds afterwards. -/
theorem Performed.offered {old value : Value} (hold : machine.registers.symbols[slot]? = some old)
    (hempty : old.isEmpty = false) (hstorage : old.storage = .uniform)
    (hoffers : Offers renderer.scene shader.constants machine slot command value)
    (h : Performed renderer shader instruction machine command flow next) :
    ∃ stored, next.registers.symbols[slot]? = some stored ∧ value.type = stored.type ∧
      value.size = stored.size := by
  cases hoffers with
  | compute ha hb hfits =>
    cases h with
    | compute _ _ _ _ _ _ h =>
      obtain ⟨_, a, b, fitted, floats, registers, -, -, ha', hb', -, hfitted, -, hcommit, rfl⟩ :=
        compute_eq_ok.mp h
      obtain rfl := Except.ok.inj (ha.symm.trans ha')
      obtain rfl := Except.ok.inj (hb.symm.trans hb')
      obtain ⟨htype, -, hsize⟩ := Value.fits_iff.mp hfits
      obtain ⟨htype', -, hsize'⟩ := Value.fits_iff.mp (Value.fits_of_ensure hfitted)
      exact ⟨_, eq_of_commit hold hempty hstorage hcommit, htype.trans htype'.symm,
        hsize.trans hsize'.symm⟩
  | call harguments hmask hrun =>
    cases h with
    | call _ _ _ _ h =>
      obtain ⟨arguments, mask, reply, registers, harguments', -, hmask', hrun', hreplied, rfl⟩ :=
        call_eq_ok.mp h
      obtain rfl := Except.ok.inj (harguments.symm.trans harguments')
      obtain rfl := Except.ok.inj (hmask.symm.trans hmask')
      obtain rfl := Except.ok.inj (hrun.symm.trans hrun')
      exact ⟨value, eq_of_commit hold hempty hstorage hreplied, rfl, rfl⟩

/-- A symbol among the outputs of `fresnel` holds a varying float afterwards. -/
theorem Performed.fits_output
    (hcount : command.PassesNoMore)
    (houtputs : command.outputsTo slot = true)
    (h : Performed renderer shader instruction machine command flow next) :
    ∃ value, next.registers.symbols[slot]? = some value ∧
      value.fits .float .varying machine.points = true := by
  unfold Command.outputsTo at houtputs
  split at houtputs
  next result addresses =>
    obtain ⟨hdrop, htake⟩ : Address.symbol slot ∈ addresses.drop 3 ∧
        Address.symbol slot ∉ addresses.take 3 := by simpa using houtputs
    have hlength : addresses.length ≤ 5 := hcount
    cases h with
    | call _ _ _ _ h =>
      obtain ⟨arguments, mask, reply, registers, harguments, -, hmask, hrun, hreplied, rfl⟩ :=
        call_eq_ok.mp h
      obtain ⟨values, hvalues, rfl⟩ := map_eq_ok.mp hrun
      -- the place of the symbol that counts is the first one
      have hn : addresses.idxOf (.symbol slot) < addresses.length :=
        List.idxOf_lt_length_of_mem (List.mem_of_mem_drop hdrop)
      have hfirst : Address.symbol slot ∉ addresses.take (addresses.idxOf (.symbol slot)) := by
        intro hmem
        obtain ⟨i, hi, hget⟩ := List.mem_take_iff_getElem.mp hmem
        have hbefore := List.not_of_lt_findIdx (Nat.lt_of_lt_of_le hi (Nat.min_le_left _ _))
        simp [hget] at hbefore
      have hthree : 3 ≤ addresses.idxOf (.symbol slot) := by
        refine Nat.le_of_not_lt fun hlt => htake ?_
        exact List.mem_take_iff_getElem.mpr ⟨_, by omega, List.getElem_idxOf hn⟩
      obtain ⟨value, hvalue, hnext⟩ := symbol_of_restore rfl
        (by rw [List.getElem?_eq_getElem hn, List.getElem_idxOf hn]) hfirst hreplied
      exact ⟨value, hnext, Setting.fits_of_fresnel hvalues (by omega) hvalue⟩
  next => cases houtputs

/-- A command that leaves symbols as declared respects the declarations. -/
theorem Performed.respects (h : Performed renderer shader instruction machine command flow next)
    (hpoints : 0 < machine.points) (hsize : machine.registers.symbols.size = shader.symbols.size)
    (hcount : command.PassesNoMore)
    (hmachine : machine.IsAsDeclared shader) (hnext : next.IsAsDeclared shader) :
    machine.Respects renderer.scene shader command where
  results := by
    intro slot symbol value hsymbol huniform hoffers
    have hlt : slot < machine.registers.symbols.size := by
      rw [hsize]
      exact (Array.getElem?_eq_some_iff.mp hsymbol).1
    have hold := Array.getElem?_eq_getElem hlt
    have hholds := hmachine slot symbol _ hsymbol hold
    obtain ⟨stored, hstored, htype, hcard⟩ := h.offered hold (hholds.isEmpty_eq hpoints)
      (hholds.storage_eq.trans huniform) hoffers
    have hafter := hnext slot symbol stored hsymbol hstored
    rw [htype, hcard, hafter.size_eq, huniform]
    exact ⟨hafter.type_eq, rfl⟩
  outputs := by
    intro slot symbol hsymbol houtputs
    obtain ⟨value, hvalue, hfits⟩ := h.fits_output hcount houtputs
    obtain ⟨htype, hstorage, -⟩ := Value.fits_iff.mp hfits
    have hafter := hnext slot symbol value hsymbol hvalue
    exact ⟨hafter.type_eq.symm.trans htype, hafter.storage_eq.symm.trans hstorage⟩

/-! ### Runs -/

variable {first : Machine σ}

/-- The count of instructions has no part in what commands compute. -/
theorem Respects.recount (executed : Nat) (h : machine.Respects scene shader command) :
    { machine with executed := executed }.Respects scene shader command where
  results := by
    intro slot symbol value hsymbol huniform hoffers
    refine h.results slot symbol value hsymbol huniform ?_
    cases hoffers with
    | compute ha hb hfits => exact .compute ha hb hfits
    | call harguments hmask hrun => exact .call harguments hmask hrun
  outputs := h.outputs

/-- In the run from here, every command that the run goes on after respects the declarations. -/
def KeepsDeclarations (renderer : Renderer σ) (shader : Shader) (first : Machine σ) : Prop :=
  ∀ machine next command, Reaches renderer shader first machine →
    turn renderer shader machine = .on next → shader.CommandAt machine.ip command →
    machine.Respects renderer.scene shader command

/-- A run keeps the number of points, and that of symbols. -/
theorem Reaches.sizes (hrenderer : renderer.KeepsCount) (h : Reaches renderer shader first machine) :
    machine.points = first.points ∧
      machine.registers.symbols.size = first.registers.symbols.size := by
  induction h with
  | start => exact ⟨rfl, rfl⟩
  | turn _ hturn ih =>
    obtain ⟨_, _, _, _, _, -, -, hperformed, rfl⟩ := performed_of_turn hturn
    have hsizes := (hperformed.sameSizes hrenderer).symbols
    obtain ⟨_, _, _, rfl⟩ := hperformed.frame
    exact ⟨ih.1, hsizes.trans ih.2⟩

/-- **Runs.**  Symbols stay as declared exactly if every command respects the declarations. -/
theorem isAsDeclared_iff (hrenderer : renderer.OnlyWritesFloats) (hpoints : 0 < first.points)
    (hsize : first.registers.symbols.size = shader.symbols.size) (hfirst : first.IsAsDeclared shader) :
    (∀ machine, Reaches renderer shader first machine → machine.IsAsDeclared shader) ↔
      KeepsDeclarations renderer shader first := by
  constructor
  · intro hdeclared machine next command hreaches hturn hcommand
    obtain ⟨hpoints', hsize'⟩ := hreaches.sizes hrenderer.keepsCount
    obtain ⟨_, _, _, last, _, hcommand', hcount, hperformed, rfl⟩ := performed_of_turn hturn
    obtain rfl := hcommand.unique hcommand'
    have hnext := hdeclared _ (.turn hreaches hturn)
    have hrespects := hperformed.respects (Nat.lt_of_lt_of_eq hpoints hpoints'.symm)
      (hsize'.trans hsize) hcount (hdeclared machine hreaches) hnext
    exact hrespects.recount machine.executed
  · intro hkeeps machine hreaches
    induction hreaches with
    | start => exact hfirst
    | @turn machine _ before hturn ih =>
      obtain ⟨hpoints', -⟩ := before.sizes hrenderer.keepsCount
      obtain ⟨_, command, _, last, _, hcommand, -, hperformed, rfl⟩ := performed_of_turn hturn
      have hrespects := hkeeps machine _ command before hturn hcommand
      have hlast := hperformed.isAsDeclared hrenderer (Nat.lt_of_lt_of_eq hpoints hpoints'.symm) ih
        (hrespects.recount (machine.executed + 1))
      exact hlast

end Machine

/-! ### Shading again -/

namespace Shader

variable {shader : Shader} {grid prepared : Grid} {symbols : List Symbol}

/-- A prepared grid is as valid as the grid that it was made of. -/
theorem Prepares.isValid (hdeclared : ∀ symbol ∈ symbols, symbol.IsDeclared) (hgrid : grid.IsValid)
    (h : Prepares symbols grid prepared) : prepared.IsValid := by
  intro name value hvalue
  rw [h.width_eq, h.height_eq]
  cases hbound : grid.value? name with
  | some bound =>
    obtain rfl := Option.some.inj (hvalue.symm.trans (h.keeps name bound hbound))
    exact hgrid name value hbound
  | none =>
    by_cases hnamed : ∃ symbol ∈ symbols, symbol.isBindable = true ∧ symbol.name = name
    · obtain ⟨symbol, hsymbol, hbindable, rfl⟩ := hnamed
      obtain ⟨initial, hinitial, hprepared⟩ := h.initial symbol hsymbol hbindable hbound
      obtain rfl := Option.some.inj (hvalue.symm.trans hprepared)
      have hholds := Symbol.initialValue_holds (hdeclared symbol hsymbol) hinitial
      have hover := Symbol.initialValue_over (fun literal hliteral =>
        ((hdeclared symbol hsymbol).default_isLiteral literal hliteral).1) hinitial
      exact ⟨by rw [hholds.size_eq, hholds.storage_eq], hover.floats⟩
    · rw [h.others name fun symbol hsymbol hbindable hname =>
        hnamed ⟨symbol, hsymbol, hbindable, hname⟩, hbound] at hvalue
      cases hvalue

/-- A grid that binds all globals and parameters to values that suit them is prepared already. -/
theorem prepareSymbols_of_bound (h : ∀ symbol ∈ symbols, symbol.isBindable = true →
      ∃ value, grid.value? symbol.name = some value ∧ symbol.checkBinding value = .ok ()) :
    prepareSymbols symbols grid = (.ok (), grid) := by
  induction symbols with
  | nil => rfl
  | cons symbol symbols ih =>
    obtain ⟨hsymbol, hsymbols⟩ := List.forall_mem_cons.mp h
    rw [prepareSymbols]
    split
    next hbindable =>
      obtain ⟨value, hvalue, hcheck⟩ := hsymbol hbindable
      simp only [hvalue, hcheck]
      exact ih hsymbols
    next => exact ih hsymbols

end Shader

namespace Machine

variable {σ : Type} {renderer : Renderer σ} {shader : Shader} {machine loaded first last : Machine σ}
  {grid prepared after : Grid} {turns : Nat}

/-- What is stored of a run in which symbols stay as declared is as declared. -/
theorem holds_of_shadeInPlace (hdeclared : Declared shader.name shader.constants shader.symbols)
    (hrenderer : renderer.KeepsCount)
    (hprepares : Shader.Prepares shader.symbols.symbols.toList grid prepared)
    (hload : load shader prepared machine = .ok loaded) (hready : loaded.ready shader = .ok first)
    (hruns : ∀ reached, Reaches renderer shader first reached → reached.IsAsDeclared shader)
    (h : shadeInPlace renderer shader turns prepared machine = (.finished, last, after))
    {symbol : Symbol} (hsymbol : symbol ∈ shader.symbols.symbols.toList)
    (hbindable : symbol.isBindable = true) :
    ∃ value, after.value? symbol.name = some value ∧ symbol.Holds first.points value := by
  generalize houtcome : Outcome.finished = outcome at h
  cases shades_of_shadeInPlace h (houtcome ▸ rfl) with
  | refused => cases houtcome
  | @stored loaded' first' ran _ _ ended progress _ hload' hready' hrun _ hstore =>
    obtain rfl := Except.ok.inj (hload.symm.trans hload')
    obtain rfl := Except.ok.inj (hready.symm.trans hready')
    cases progress with
    | error failure => cases houtcome
    | ok _ =>
      obtain ⟨n, hn⟩ := List.mem_iff_getElem?.mp hsymbol
      have hslot : shader.symbols.symbols[n]? = some symbol := by rwa [← Array.getElem?_toList]
      -- a prepared grid binds the symbol, so it is stored
      have hstored : IsStored ran.bound symbol (0 + n) := by
        refine .inr ?_
        obtain ⟨value, -, hbound⟩ | ⟨-, value, -, -, hbound⟩ :=
          Shader.boundValue?_prepared hdeclared hprepares hsymbol hbindable <;>
        simp [bound_of_run hload hready hrun, hslot, hbound]
      obtain ⟨value, hvalue, hafter⟩ := value?_of_storeSymbols hdeclared.distinct hstore hn hstored
      obtain ⟨reached, hreaches, hregisters⟩ := run_reaches renderer shader turns first
      rw [hrun] at hregisters
      rw [Nat.zero_add, show ran.registers = reached.registers from hregisters] at hvalue
      have hholds := hruns reached hreaches n symbol value hslot hvalue
      rw [(hreaches.sizes hrenderer).1] at hholds
      exact ⟨value, hafter, hholds⟩

/-- **Declarations.**  Let a text describe a shader, and let a valid grid of at least one point be
    prepared for it.  If the renderer does no more than overwrite floats, symbols are as declared all
    along a run exactly if every command respects the declarations.  Then, if the grid is shaded in
    place to the end, it is prepared for the shader still, and shading it again reports no mismatch. -/
theorem symbols_stay_as_declared {text : String} (hassemble : assemble text = .ok shader)
    (hgrid : grid.IsValid) (hpoints : 0 < grid.width * grid.height)
    (hrenderer : renderer.OnlyWritesFloats) (hprepare : shader.prepare grid = (.ok (), prepared))
    (hload : load shader prepared machine = .ok loaded) (hready : loaded.ready shader = .ok first) :
    ((∀ reached, Reaches renderer shader first reached → reached.IsAsDeclared shader) ↔
      KeepsDeclarations renderer shader first) ∧
    (KeepsDeclarations renderer shader first → ∀ turns last after,
      shadeInPlace renderer shader turns prepared machine = (.finished, last, after) →
      shader.prepare after = (.ok (), after) ∧
        ∀ turns' machine' error, error.isMismatch = true →
          (shadeInPlace renderer shader turns' after machine').1 ≠ .failed (.error error)) := by
  have hdeclared := assemble_declared hassemble
  obtain ⟨hvalid, hprepares⟩ := Shader.prepares_of_prepare hdeclared hprepare
  have hprepared := hprepares.isValid (fun symbol hsymbol =>
    hdeclared.isDeclared symbol (Array.mem_toList_iff.mp hsymbol)) hgrid
  have hfirst := start_isAsDeclared hdeclared hprepared
    (Shader.validate_prepared hdeclared hprepares hvalid) hload hready
  obtain ⟨-, hover, -⟩ := start_over hprepared hdeclared hload hready
  have hsame : 0 < first.points := by
    rw [hover.points_eq, hprepares.width_eq, hprepares.height_eq]
    exact hpoints
  have hruns := isAsDeclared_iff hrenderer hsame (size_symbols_of_ready hload hready) hfirst
  refine ⟨hruns, fun hkeeps turns last after hshaded => ?_⟩
  have hbound : ∀ symbol ∈ shader.symbols.symbols.toList, symbol.isBindable = true →
      ∃ value, after.value? symbol.name = some value ∧ symbol.checkBinding value = .ok () := by
    intro symbol hsymbol hbindable
    obtain ⟨value, hvalue, hholds⟩ := holds_of_shadeInPlace hdeclared hrenderer.keepsCount hprepares
      hload hready (hruns.mpr hkeeps) hshaded hsymbol hbindable
    exact ⟨value, hvalue, hholds.checkBinding⟩
  have hagain := Shader.prepareSymbols_of_bound hbound
  refine ⟨hagain, fun turns' machine' error hmismatch houtcome => ?_⟩
  have hrefused := mismatch_iff_validate.mp ⟨hmismatch, houtcome⟩
  rw [(Shader.prepares_of_prepare hdeclared hagain).1] at hrefused
  cases hrefused

/-- The one result that a symbol of `grey` takes is for a varying symbol. -/
theorem respects_grey {ip : Nat} {command : Command} (h : grey.CommandAt ip command)
    (machine : Machine Unit) : machine.Respects .still grey command := by
  have hmem := commandAt_grey h
  simp only [List.mem_cons, List.not_mem_nil, or_false] at hmem
  refine ⟨fun slot symbol value hsymbol huniform hoffers => ?_, fun slot symbol _ houtputs => ?_⟩
  · obtain rfl | rfl | rfl | rfl | rfl := hmem <;> cases hoffers
    obtain rfl := Option.some.inj hsymbol
    cases huniform
  · obtain rfl | rfl | rfl | rfl | rfl := hmem <;> cases houtputs

theorem symbols_stay_as_declared_grey : ∃ prepared loaded first,
    grey.prepare twoPoints = (.ok (), prepared) ∧ load grey prepared idle = .ok loaded ∧
      loaded.ready grey = .ok first ∧
      (∀ reached, Reaches (.ofScene .still) grey first reached → reached.IsAsDeclared grey) ∧
      ∃ last after, shadeInPlace (.ofScene .still) grey 10 prepared idle = (.finished, last, after) ∧
        grey.prepare after = (.ok (), after) := by
  have hprepare : (grey.prepare twoPoints).1.isOk = true := by decide +kernel
  have hfinished : (shadeInPlace (.ofScene .still) grey 10 (grey.prepare twoPoints).2 idle).1
      = .finished := by
    decide +kernel
  rcases hresult : grey.prepare twoPoints with ⟨progress, prepared⟩
  rcases hshaded : shadeInPlace (.ofScene .still) grey 10 prepared idle with ⟨outcome, last, after⟩
  rw [hresult] at hprepare hfinished
  dsimp only at hprepare hfinished
  rw [hshaded] at hfinished
  obtain rfl : outcome = .finished := hfinished
  cases progress with
  | error failure => cases hprepare
  | ok _ =>
    have hdeclared := assemble_declared assemble_greyText
    obtain ⟨hvalid, hprepares⟩ := Shader.prepares_of_prepare hdeclared hresult
    obtain ⟨loaded, first, hload, hready⟩ := shadeInPlace_starts hshaded (by simp)
      (Shader.validate_prepared hdeclared hprepares hvalid)
    obtain ⟨hruns, hagain⟩ := symbols_stay_as_declared assemble_greyText twoPoints_isValid (by decide)
      (Renderer.ofScene_onlyWritesFloats _) hresult hload hready
    have hkeeps : KeepsDeclarations (.ofScene .still) grey first :=
      fun machine _ _ _ _ hcommand => respects_grey hcommand machine
    exact ⟨prepared, loaded, first, rfl, hload, hready, hruns.mpr hkeeps, last, after, hshaded,
      (hagain hkeeps 10 last after hshaded).1⟩

/-- A shader that puts the difference of two points into a symbol for a vector. -/
def differenceOfPoints : Shader where
  kind := .surface
  name := "main"
  code := #[0x13130D, 0x40000000, 0x40000001, 0x40000002]
  constants := #[]
  symbols := ⟨#[⟨"v", .global, .vector, .uniform, none⟩, ⟨"p", .global, .point, .uniform, none⟩,
    ⟨"q", .global, .point, .uniform, none⟩]⟩
  temporaries := 0

/-- The symbol is left with a point, which a second attempt to prepare the grid refuses. -/
theorem differenceOfPoints_is_point :
    assemble ".global uniform vector v
.global uniform point p
.global uniform point q
subtract.u3u3 @v, @p, @q" = .ok differenceOfPoints ∧
      (differenceOfPoints.prepare (.new 1 1)).1 = .ok () ∧
      (shadeInPlace (.ofScene .still) differenceOfPoints 10
        (differenceOfPoints.prepare (.new 1 1)).2 idle).1 = .finished ∧
      (differenceOfPoints.prepare (shadeInPlace (.ofScene .still) differenceOfPoints 10
        (differenceOfPoints.prepare (.new 1 1)).2 idle).2.2).1
          = .error (.error (.typeMismatch "v" .vector .point)) := by
  refine ⟨?_, ?_, by decide +kernel, ?_⟩
  · with_unfolding_all rfl
  · with_unfolding_all rfl
  · with_unfolding_all rfl

end Machine

end Shading
