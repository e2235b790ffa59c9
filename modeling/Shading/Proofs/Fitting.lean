import Shading.Proofs.Filling
import Shading.Proofs.Preparation

namespace Shading

/-!
# Bound values fit their grid

However a grid came about, every value that it binds has one element for each point, or one if it is
uniform, and all the floats of these elements.  A value of another size is refused, whether it is
bound by hand, as an initial value or after a run, and a run leaves no value without its floats.  The
names that are bound come in the order of their bytes.

* `utf8Bytes` — the bytes of a name, and `utf8Bytes_lt` for their order;
* `NameMap.IsSorted` — maps whose entries are in order;
* `Shader.IsFilled` — shaders whose constants and defaults have all their floats;
* `Grid.IsFitted` — grids with values that fit, in order: what preparing and shading keep;
* `Grid.Reached` — grids with a history, and `Grid.Reached.values_fit`.
-/

/-! ### The order of bytes -/

/-- The bytes of a text. -/
def utf8Bytes (text : String) : List UInt8 := text.toByteArray.data.toList

theorem utf8Bytes_eq (text : String) :
    utf8Bytes text = text.toList.flatMap String.utf8EncodeChar := by
  rw [utf8Bytes, ← String.utf8Encode_toList, List.utf8Encode, List.data_toByteArray]

theorem ofNat_lt_ofNat {a b : Nat} (ha : a < 256) (hb : b < 256) :
    UInt8.ofNat a < UInt8.ofNat b ↔ a < b := by
  rw [UInt8.lt_iff_toNat_lt, UInt8.toNat_ofNat_of_lt' ha, UInt8.toNat_ofNat_of_lt' hb]

theorem ofNat_eq_ofNat {a b : Nat} (ha : a < 256) (hb : b < 256) :
    UInt8.ofNat a = UInt8.ofNat b ↔ a = b := by
  rw [← UInt8.toNat_inj, UInt8.toNat_ofNat_of_lt' ha, UInt8.toNat_ofNat_of_lt' hb]

theorem toNat_lt_of_char (c : Char) : c.val.toNat < 0x110000 := by
  have hvalid : c.val.toNat.isValidChar := c.valid
  unfold Nat.isValidChar at hvalid
  omega

/-- The bits of a character that go into each of four bytes. -/
theorem exists_sextets {n : Nat} (h : n < 0x110000) :
    ∃ a b c d, n / 262144 % 8 = a ∧ n / 4096 % 64 = b ∧ n / 64 % 64 = c ∧ n % 64 = d ∧
      n = 64 * (64 * (64 * a + b) + c) + d ∧ b < 64 ∧ c < 64 ∧ d < 64 := by
  refine ⟨_, _, _, _, rfl, rfl, rfl, rfl, ?_, ?_, ?_, ?_⟩ <;> omega

/-- The bytes of two characters differ before either ends, in the order of the characters. -/
theorem utf8EncodeChar_append_lt {c d : Char} (h : c < d) (rest rest' : List UInt8) :
    String.utf8EncodeChar c ++ rest < String.utf8EncodeChar d ++ rest' := by
  have hlt : c.val.toNat < d.val.toNat := h
  have hc := toNat_lt_of_char c
  have hd := toNat_lt_of_char d
  unfold String.utf8EncodeChar
  generalize c.val.toNat = v at *
  generalize d.val.toNat = w at *
  dsimp only
  split_ifs
  all_goals
    simp (disch := omega) only [List.cons_append, List.nil_append, List.cons_lt_cons_iff,
      ofNat_lt_ofNat, ofNat_eq_ofNat]
  -- unless both have four bytes, the first of them or the remainders settle it
  all_goals try omega
  obtain ⟨_, _, _, _, ha, hb, hc, hd, _, _, _, _⟩ := exists_sextets ‹v < _›
  obtain ⟨_, _, _, _, ha', hb', hc', hd', _, _, _, _⟩ := exists_sextets ‹w < _›
  rw [ha, hb, hc, hd, ha', hb', hc', hd']
  omega

/-- **Byte order.**  Texts are ordered as their bytes are. -/
theorem utf8Bytes_lt {first second : String} (h : first < second) :
    utf8Bytes first < utf8Bytes second := by
  rw [utf8Bytes_eq, utf8Bytes_eq]
  rw [String.lt_iff_toList_lt] at h
  generalize first.toList = cs at h
  generalize second.toList = ds at h
  induction h with
  | @nil d ds =>
    obtain ⟨byte, more, hbytes⟩ := List.exists_cons_of_ne_nil (String.utf8EncodeChar_ne_nil (c := d))
    rw [List.flatMap_nil, List.flatMap_cons, hbytes]
    exact List.nil_lt_cons _ _
  | rel h =>
    rw [List.flatMap_cons, List.flatMap_cons]
    exact utf8EncodeChar_append_lt h _ _
  | cons _ ih =>
    rw [List.flatMap_cons, List.flatMap_cons]
    exact List.append_left_lt ih

/-! ### Entries in order -/

namespace NameMap

variable {α : Type} {map : NameMap α} {name : String} {value : α}

/-- The entries come in the order of their names, no name twice. -/
def IsSorted (map : NameMap α) : Prop :=
  map.entries.Pairwise fun entry entry' => entry.1 < entry'.1

theorem mem_insertIn {entry : String × α} {entries : List (String × α)}
    (h : entry ∈ insertIn name value entries) : entry = (name, value) ∨ entry ∈ entries := by
  fun_induction insertIn name value entries with
  | case1 => exact .inl (List.mem_singleton.mp h)
  | case2 old rest => exact (List.mem_cons.mp h).imp_right (List.mem_cons_of_mem _)
  | case3 key old rest hne hlt => exact List.mem_cons.mp h
  | case4 key old rest hne hlt ih =>
    obtain rfl | h := List.mem_cons.mp h
    · exact .inr List.mem_cons_self
    · exact (ih h).imp_right (List.mem_cons_of_mem _)

theorem IsSorted.insert (h : map.IsSorted) (name : String) (value : α) :
    (map.insert name value).IsSorted := by
  obtain ⟨entries⟩ := map
  show (insertIn name value entries).Pairwise fun entry entry' => entry.1 < entry'.1
  replace h : entries.Pairwise fun entry entry' => entry.1 < entry'.1 := h
  fun_induction insertIn name value entries with
  | case1 => exact List.pairwise_singleton _ _
  | case2 old rest => exact List.pairwise_cons.mpr ⟨(List.pairwise_cons.mp h).1, h.of_cons⟩
  | case3 key old rest hne hlt =>
    refine List.pairwise_cons.mpr ⟨?_, h⟩
    intro entry hentry
    obtain rfl | hentry := List.mem_cons.mp hentry
    · exact hlt
    · exact String.lt_trans hlt ((List.pairwise_cons.mp h).1 entry hentry)
  | case4 key old rest hne hlt ih =>
    refine List.pairwise_cons.mpr ⟨?_, ih h.of_cons⟩
    intro entry hentry
    obtain rfl | hentry := mem_insertIn hentry
    · exact lt_of_le_of_ne (not_lt.mp hlt) hne
    · exact (List.pairwise_cons.mp h).1 entry hentry

theorem IsSorted.erase (h : map.IsSorted) (name : String) : (map.erase name).IsSorted :=
  List.Pairwise.filter _ h

/-- The names are those that are found. -/
theorem mem_names : name ∈ map.names ↔ ∃ value, map.find? name = some value := by
  obtain ⟨entries⟩ := map
  show name ∈ entries.map Prod.fst ↔ ∃ value, findIn name entries = some value
  induction entries with
  | nil => simp [findIn]
  | cons entry entries ih =>
    obtain ⟨key, old⟩ := entry
    rw [List.map_cons, List.mem_cons, findIn, ih]
    by_cases hname : key = name
    · simp [hname]
    · simp [hname, Ne.symm hname]

end NameMap

/-! ### Grids with values that fit -/

namespace Grid

variable {grid next : Grid} {name : String} {value : Value}

/-- Every value has elements for the points and floats for the elements, and the names are in order. -/
structure IsFitted (grid : Grid) : Prop where
  valid : grid.IsValid
  sorted : grid.values.IsSorted

theorem isFitted_new (width height : Nat) : (new width height).IsFitted where
  valid := by simp [IsValid, value?, new, NameMap.find?, NameMap.empty, NameMap.findIn]
  sorted := List.Pairwise.nil

theorem IsFitted.bind (h : grid.IsFitted)
    (hsize : value.size = value.storage.size (grid.width * grid.height)) (hvalue : value.IsFilled) :
    (grid.bind name value).IsFitted := by
  refine ⟨fun other found hfound => ?_, h.sorted.insert name value⟩
  rw [value?_bind] at hfound
  split at hfound
  next => exact Option.some.inj hfound ▸ ⟨hsize, hvalue⟩
  next => exact h.valid other found hfound

theorem IsFitted.erase (h : grid.IsFitted) (name : String) : (grid.erase name).IsFitted := by
  refine ⟨fun other found hfound => ?_, h.sorted.erase name⟩
  rw [value?_erase] at hfound
  split at hfound
  next => cases hfound
  next => exact h.valid other found hfound

theorem IsFitted.insert (h : grid.IsFitted) (hvalue : value.IsFilled)
    (hinsert : grid.insert name value = .ok next) : next.IsFitted := by
  obtain ⟨-, hsize, rfl⟩ := insert_eq_ok.mp hinsert
  exact h.bind hsize hvalue

theorem IsFitted.unbind (h : grid.IsFitted) (shader : Shader) : (shader.unbind grid).IsFitted :=
  List.foldlRecOn _ _ h fun _ hnext symbol _ => hnext.erase symbol.name

end Grid

/-! ### Preparing and shading -/

namespace Symbol

variable {symbol : Symbol} {value : Value} {bound : Option Value} {points : Nat}

/-- The default, if there is one, has all its floats. -/
def IsFilled (symbol : Symbol) : Prop := ∀ value, symbol.default = some value → value.IsFilled

theorem initialValue_filled (hsymbol : symbol.IsFilled) (h : symbol.initialValue points = .ok value) :
    value.IsFilled := by
  unfold initialValue at h
  split at h
  next default hdefault =>
    split at h
    · exact Value.broadcast_isFilled (hsymbol default hdefault) h
    · exact Except.ok.inj h ▸ hsymbol default hdefault
  next => exact Value.allocate_isFilled h

theorem loadedValue_filled (hsymbol : symbol.IsFilled)
    (hbound : ∀ value, bound = some value → value.IsFilled)
    (h : symbol.loadedValue points bound = .ok value) : value.IsFilled := by
  unfold loadedValue at h
  split at h
  next found =>
    split at h
    · exact Value.broadcast_isFilled (hbound found rfl) h
    · exact Except.ok.inj h ▸ hbound found rfl
  next => exact initialValue_filled hsymbol h

end Symbol

namespace Shader

variable {shader : Shader} {grid : Grid}

/-- Every constant and every default has all its floats. -/
structure IsFilled (shader : Shader) : Prop where
  constants : Value.AllFilled shader.constants
  symbols : ∀ symbol ∈ shader.symbols.symbols.toList, symbol.IsFilled

theorem bindInitial_fitted {symbol : Symbol} {next : Grid} (hsymbol : symbol.IsFilled)
    (hgrid : grid.IsFitted) (h : bindInitial symbol grid = .ok next) : next.IsFitted := by
  obtain ⟨points, -, h⟩ := bind_eq_ok.mp h
  obtain ⟨value, hvalue, hinsert⟩ := bind_eq_ok.mp h
  exact hgrid.insert (symbol.initialValue_filled hsymbol (mapError_eq_ok.mp hvalue)) hinsert

/-- What binding one symbol keeps, preparing a grid keeps, also if it fails. -/
theorem prepareSymbols_invariant (P : Grid → Prop) {symbols : List Symbol}
    (hbind : ∀ symbol ∈ symbols, symbol.isBindable = true → ∀ grid next, P grid →
      grid.value? symbol.name = none → bindInitial symbol grid = .ok next → P next)
    (hgrid : P grid) : P (prepareSymbols symbols grid).2 := by
  induction symbols generalizing grid with
  | nil => exact hgrid
  | cons symbol symbols ih =>
    obtain ⟨hsymbol, hsymbols⟩ := List.forall_mem_cons.mp hbind
    rw [prepareSymbols]
    split
    next hbindable =>
      split
      next =>
        split
        next => exact ih hsymbols hgrid
        next => exact hgrid
      next hnone =>
        split
        next next hnext => exact ih hsymbols (hsymbol hbindable grid next hgrid hnone hnext)
        next => exact hgrid
    next => exact ih hsymbols hgrid

theorem prepareSymbols_fitted {symbols : List Symbol}
    (hsymbols : ∀ symbol ∈ symbols, symbol.IsFilled) (hgrid : grid.IsFitted) :
    (prepareSymbols symbols grid).2.IsFitted :=
  prepareSymbols_invariant Grid.IsFitted
    (fun symbol hsymbol _ _ _ hgrid _ => bindInitial_fitted (hsymbols symbol hsymbol) hgrid) hgrid

end Shader

namespace Machine

variable {σ : Type} {renderer : Renderer σ} {shader : Shader} {machine loaded : Machine σ}
  {grid : Grid} {turns : Nat}

theorem load_filled (hshader : shader.IsFilled) (hgrid : grid.IsValid)
    (h : load shader grid machine = .ok loaded) : Value.AllFilled loaded.registers.symbols := by
  obtain ⟨-, symbols, hsymbols, rfl⟩ := load_eq_ok.mp h
  obtain ⟨hsize, hall⟩ := array_mapM_eq_ok.mp hsymbols
  intro slot value hvalue
  have hlt : slot < shader.symbols.symbols.size := hsize ▸ (Array.getElem?_eq_some_iff.mp hvalue).1
  obtain ⟨value', hvalue', hloaded⟩ := hall slot _ (Array.getElem?_eq_getElem hlt)
  obtain rfl := Option.some.inj (hvalue.symm.trans hvalue')
  refine Symbol.loadedValue_filled (hshader.symbols _ (Array.getElem_mem_toList hlt)) ?_ hloaded
  intro found hfound
  unfold Shader.boundValue? at hfound
  split at hfound
  · exact (hgrid _ found hfound).2
  · cases hfound

theorem ready_filled {first : Machine σ} (h : Value.AllFilled machine.registers.symbols)
    (hready : machine.ready shader = .ok first) : first.registers.IsFilled := by
  obtain ⟨-, _, _, hcleared, hregisters, rfl⟩ := ready_eq_ok.mp hready
  exact .clearTemporaries (Registers.IsFilled.clearTemporaries h hcleared).symbols hregisters

/-- Symbols have all their floats at the end of a run, however it went. -/
theorem execute_filled (hrenderer : renderer.OnlyWritesFloats) (hshader : shader.IsFilled)
    (h : Value.AllFilled machine.registers.symbols) :
    Value.AllFilled (execute renderer shader turns machine).2.registers.symbols := by
  unfold execute
  split
  next =>
    split
    next first hready =>
      exact (run_filled hrenderer hshader.constants (ready_filled h hready) turns).symbols
    next => exact h
  next => exact h

/-- What taking one symbol back keeps, storing keeps, also if it fails. -/
theorem storeSymbols_invariant (P : Grid → Prop) {symbols : List Symbol} {slot : Nat}
    (hinsert : ∀ n symbol value grid next, symbols[n]? = some symbol →
      IsStored machine.bound symbol (slot + n) →
      machine.registers.symbols[slot + n]? = some value → P grid →
      grid.insert symbol.name value = .ok next → P next)
    (hgrid : P grid) : P (storeSymbols symbols slot grid machine).2.2 := by
  induction symbols generalizing slot grid machine with
  | nil => exact hgrid
  | cons symbol symbols ih =>
    have hrest := fun n => hinsert (n + 1)
    simp only [← Nat.add_assoc, Nat.add_right_comm slot _ 1] at hrest
    rw [storeSymbols]
    split
    next hstored =>
      split
      next => exact hgrid
      next value hvalue =>
        dsimp only
        split
        next next hnext =>
          have hnext' := hinsert 0 symbol value grid next rfl (by simpa [IsStored] using hstored)
            (fetch_eq_ok.mp hvalue) hgrid hnext
          refine ih (fun n other found grid next hother hstored hfound => ?_) hnext'
          -- the register that is empty now is not read again
          rw [Array.getElem?_setIfInBounds_ne (by omega)] at hfound
          exact hrest n other found grid next hother hstored hfound
        next => exact hgrid
    next => exact ih hrest hgrid

theorem storeSymbols_fitted {symbols : List Symbol} {slot : Nat}
    (h : Value.AllFilled machine.registers.symbols) (hgrid : grid.IsFitted) :
    (storeSymbols symbols slot grid machine).2.2.IsFitted :=
  storeSymbols_invariant Grid.IsFitted
    (fun n _ value _ _ _ _ hvalue hgrid hinsert => hgrid.insert (h (slot + n) value hvalue) hinsert)
    hgrid

theorem settle_fitted {outcome : Outcome} (h : Value.AllFilled machine.registers.symbols)
    (hgrid : grid.IsFitted) : (settle shader grid (outcome, machine)).2.2.IsFitted := by
  obtain ⟨-, hsettle⟩ | hsettle := settle_cases (σ := σ) shader outcome
  · rw [hsettle]
    exact storeSymbols_fitted h hgrid
  · rw [hsettle]
    exact hgrid

theorem deliver_fitted {outcome : Outcome} (h : Value.AllFilled machine.registers.symbols)
    (hgrid : grid.IsFitted) : (deliver shader grid (outcome, machine)).2.2.IsFitted := by
  cases outcome with
  | finished => exact storeSymbols_fitted h hgrid
  | failed | unfinished => exact hgrid

theorem shade_fitted {input output : Grid} (hrenderer : renderer.OnlyWritesFloats)
    (hshader : shader.IsFilled) (hinput : input.IsFitted) (houtput : output.IsFitted) :
    (shade renderer shader turns input output machine).2.2.IsFitted := by
  obtain ⟨_, -, hshade⟩ | hshade := shade_cases renderer shader input output
  · rw [hshade]
    exact houtput
  · rw [hshade]
    split
    next => exact houtput
    next loaded hload =>
      exact deliver_fitted (execute_filled hrenderer hshader (load_filled hshader hinput.valid hload))
        houtput

theorem shadeInPlace_fitted (hrenderer : renderer.OnlyWritesFloats) (hshader : shader.IsFilled)
    (hgrid : grid.IsFitted) : (shadeInPlace renderer shader turns grid machine).2.2.IsFitted := by
  obtain ⟨_, -, hshade⟩ | hshade := shadeInPlace_cases renderer shader grid
  · rw [hshade]
    exact hgrid
  · rw [hshade]
    split
    next => exact hgrid
    next loaded hload =>
      exact settle_fitted (execute_filled hrenderer hshader (load_filled hshader hgrid.valid hload))
        (hgrid.unbind shader)

end Machine

/-! ### Grids with a history -/

namespace Grid

variable {grid : Grid}

/-- The grid after a value was given to it: as it was, if the value is refused. -/
def afterInsert (grid : Grid) (name : String) (value : Value) : Grid :=
  match grid.insert name value with
  | .ok next => next
  | .error _ => grid

/-- The grids that are made, filled, prepared and shaded into, in any order.  Values and shaders have
    all their floats, as any that can be made (`Value.Made.isFilled`); whoever overwrites what a grid
    binds overwrites floats alone. -/
inductive Reached : Grid → Prop
  | new (width height : Nat) : Reached (new width height)
  | ofPoints (points : Nat) : Reached (ofPoints points)
  | resize {grid : Grid} (before : Reached grid) (width height : Nat) :
      Reached (grid.resize width height)
  | addVarying {grid next : Grid} {name : String} {type : ElementType} (before : Reached grid)
      (h : grid.addVarying name type = .ok next) : Reached next
  | addUniform {grid : Grid} (before : Reached grid) (name : String) (type : ElementType) :
      Reached (grid.addUniform name type)
  | insert {grid : Grid} {value : Value} (before : Reached grid) (name : String)
      (hvalue : value.IsFilled) : Reached (grid.afterInsert name value)
  | erase {grid : Grid} (before : Reached grid) (name : String) : Reached (grid.erase name)
  | overwrite {grid : Grid} {name : String} {value : Value} {floats : Buffer}
      (before : Reached grid) (hvalue : grid.value? name = some value)
      (hfloats : floats.size = value.floats.size) :
      Reached (grid.bind name { value with floats := floats })
  | prepare {grid : Grid} {shader : Shader} (before : Reached grid) (hshader : shader.IsFilled) :
      Reached (shader.prepare grid).2
  | shade {σ : Type} {renderer : Renderer σ} {shader : Shader} {input output : Grid}
      (source : Reached input) (before : Reached output) (hrenderer : renderer.OnlyWritesFloats)
      (hshader : shader.IsFilled) (turns : Nat) (machine : Machine σ) :
      Reached (Machine.shade renderer shader turns input output machine).2.2
  | shadeInPlace {σ : Type} {renderer : Renderer σ} {shader : Shader} {grid : Grid}
      (before : Reached grid) (hrenderer : renderer.OnlyWritesFloats) (hshader : shader.IsFilled)
      (turns : Nat) (machine : Machine σ) :
      Reached (Machine.shadeInPlace renderer shader turns grid machine).2.2

/-- **Histories.**  Every step of a history keeps values that fit. -/
theorem Reached.isFitted (h : grid.Reached) : grid.IsFitted := by
  induction h with
  | new width height => exact isFitted_new width height
  | ofPoints points => exact isFitted_new points 1
  | resize _ width height => exact isFitted_new width height
  | addVarying _ h ih =>
    obtain ⟨points, hpoints, h⟩ := bind_eq_ok.mp h
    obtain ⟨-, rfl⟩ := countPoints_eq_ok.mp hpoints
    obtain ⟨value, hvalue, h⟩ := bind_eq_ok.mp h
    obtain rfl := pure_eq_ok.mp h
    obtain ⟨-, rfl⟩ := Value.allocate_eq_ok.mp hvalue
    exact ih.bind rfl (Value.zeros_isFilled _ _ _)
  | addUniform _ name type ih => exact ih.bind rfl (Value.zeros_isFilled type .uniform 1)
  | insert _ name hvalue ih =>
    unfold afterInsert
    split
    next next hnext => exact ih.insert hvalue hnext
    next => exact ih
  | erase _ name ih => exact ih.erase name
  | overwrite _ hvalue hfloats ih =>
    obtain ⟨hsize, hfilled⟩ := ih.valid _ _ hvalue
    exact ih.bind hsize (Value.IsFilled.with_floats hfilled hfloats)
  | prepare _ hshader ih => exact Shader.prepareSymbols_fitted hshader.symbols ih
  | shade _ _ hrenderer hshader turns machine hinput houtput =>
    exact Machine.shade_fitted hrenderer hshader hinput houtput
  | shadeInPlace _ hrenderer hshader turns machine ih =>
    exact Machine.shadeInPlace_fitted hrenderer hshader ih

theorem afterInsert_of_refused {name : String} {value : Value}
    (h : ∀ next, grid.insert name value ≠ .ok next) : grid.afterInsert name value = grid := by
  unfold afterInsert
  split
  next next hnext => exact absurd hnext (h next)
  next => rfl

theorem IsFitted.bytes_increase (h : grid.IsFitted) :
    (grid.names.map utf8Bytes).Pairwise (· < ·) := by
  rw [names, NameMap.names, List.map_map, List.pairwise_map]
  exact h.sorted.imp utf8Bytes_lt

theorem IsFitted.nodup_names (h : grid.IsFitted) : grid.names.Nodup := by
  rw [names, NameMap.names, List.Nodup, List.pairwise_map]
  exact h.sorted.imp fun hlt => ne_of_lt hlt

/-- **Values fit.**  Whatever was done to a grid, a varying value that it binds has an element for each
    point, a uniform value has one, and there is a float for each component of each element.  A value
    is refused exactly if its size is another one, and then the grid stays as it is.  The names that
    are listed are those that are bound, each of them once, in the order of their bytes. -/
theorem Reached.values_fit (h : grid.Reached) :
    (∀ name value, grid.value? name = some value →
        (value.storage = .varying → value.size = grid.width * grid.height) ∧
        (value.storage = .uniform → value.size = 1) ∧
        value.floats.size = value.components * value.size) ∧
      (∀ name value,
        ((∃ next, grid.insert name value = .ok next) ↔
          grid.width * grid.height < UInt64.size ∧
            value.size = value.storage.size (grid.width * grid.height)) ∧
        ((∀ next, grid.insert name value ≠ .ok next) → grid.afterInsert name value = grid)) ∧
      (∀ name, name ∈ grid.names ↔ ∃ value, grid.value? name = some value) ∧
      grid.names.Nodup ∧ (grid.names.map utf8Bytes).Pairwise (· < ·) := by
  have hfitted := h.isFitted
  refine ⟨fun name value hvalue => ?_, fun name value => ⟨?_, afterInsert_of_refused⟩,
    fun name => NameMap.mem_names, hfitted.nodup_names, hfitted.bytes_increase⟩
  · obtain ⟨hsize, hfloats⟩ := hfitted.valid name value hvalue
    exact ⟨fun hstorage => by rw [hsize, hstorage]; rfl,
      fun hstorage => by rw [hsize, hstorage]; rfl, hfloats⟩
  · simp only [insert_eq_ok, exists_and_left, exists_eq, and_true]

/-- A grid that was filled and shaded in place, and a value that is too large for it. -/
theorem Reached.values_fit_doubleWhereSet :
    let grid := ((Grid.new 2 1).afterInsert "x" (.varyingFloat #[0, 3])).addUniform "Ka" .color
    let shaded :=
      (Machine.shadeInPlace (.ofScene .still) Machine.doubleWhereSet 10 grid Machine.idle).2.2
    shaded.Reached ∧ shaded.names = ["Ka", "x"] ∧
      shaded.afterInsert "y" (.varyingFloat #[1, 2, 3]) = shaded ∧
      ∃ value, shaded.value? "x" = some value ∧ value.floats.size = value.components * value.size := by
  intro grid shaded
  have hshader : Machine.doubleWhereSet.IsFilled := by
    refine ⟨fun n value hvalue => ?_, fun symbol hsymbol value hvalue => ?_⟩
    · simp [Machine.doubleWhereSet] at hvalue
    · obtain rfl := List.mem_singleton.mp hsymbol
      cases hvalue
  have hvalue : (Value.varyingFloat #[0, 3]).IsFilled := rfl
  have hgrid : grid.Reached := .addUniform (.insert (.new 2 1) "x" hvalue) "Ka" .color
  have hshaded : shaded.Reached :=
    .shadeInPlace hgrid (Renderer.ofScene_onlyWritesFloats .still) hshader 10 Machine.idle
  have hnames : shaded.names = ["Ka", "x"] := by decide +kernel
  obtain ⟨hvalues, hinserts, hbound, -⟩ := hshaded.values_fit
  obtain ⟨value, hvalue⟩ := (hbound "x").mp (by rw [hnames]; decide)
  obtain ⟨hfits, hkept⟩ := hinserts "y" (.varyingFloat #[1, 2, 3])
  have hpoints : shaded.width * shaded.height = 2 := by decide +kernel
  refine ⟨hshaded, hnames, hkept fun next hnext => ?_, value, hvalue, (hvalues "x" value hvalue).2.2⟩
  have hsize := (hfits.mp ⟨next, hnext⟩).2
  rw [hpoints] at hsize
  cases hsize

end Grid

end Shading
