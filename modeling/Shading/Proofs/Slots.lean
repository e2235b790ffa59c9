import Shading.Renderer
import Shading.Machine.Registers
import Shading.Proofs.Operations
import Shading.Proofs.Declarations

namespace Shading

/-!
# Slots and names of symbols

A table that is searched by name and by slot can keep both ways of the search in a map beside its
symbols.  Such a table goes in step with one that keeps the symbols alone, whatever is declared and
refused, so slots and names stay in bijection, and a slot is never given to another name.

* `TwoWayMap` — maps from names to slots and back, and the laws they keep;
* `IndexedTable` — symbols with such a map;
* `SymbolTable.declareAll` — the table after a sequence of declarations, some of them refused;
* `IndexedTable.Mirrors` — the two tables in step, kept by `Mirrors.insert` and `Mirrors.insertAll`;
* `SharesRegister` — an operand word and a name that lead to the same register;
* `TwoWayMap.Lawful.keeps_slots` — what holds of the slots after any declarations.
-/

/-! ### Tables with a map -/

/-- Maps between names and slots that are looked up both ways, of type `μ`. -/
structure TwoWayMap (μ : Type) where
  empty : μ
  slot? : μ → String → Option Nat
  name? : μ → Nat → Option String
  /-- Takes in a new pair, unless that would overwrite another. -/
  insertNew : μ → String → Nat → Bool × μ

namespace TwoWayMap

variable {μ : Type} (maps : TwoWayMap μ)

/-- A pair is taken in unless one of its sides is there already, and then nothing changes. -/
structure Lawful : Prop where
  slot?_empty : ∀ name, maps.slot? maps.empty name = none
  name?_empty : ∀ slot, maps.name? maps.empty slot = none
  refuses : ∀ index name slot, (maps.insertNew index name slot).1 = false ↔
    maps.slot? index name ≠ none ∨ maps.name? index slot ≠ none
  unchanged : ∀ index name slot, (maps.insertNew index name slot).1 = false →
    (maps.insertNew index name slot).2 = index
  slot?_insertNew : ∀ index name slot, (maps.insertNew index name slot).1 = true → ∀ other,
    maps.slot? (maps.insertNew index name slot).2 other
      = if other = name then some slot else maps.slot? index other
  name?_insertNew : ∀ index name slot, (maps.insertNew index name slot).1 = true → ∀ other,
    maps.name? (maps.insertNew index name slot).2 other
      = if other = slot then some name else maps.name? index other

end TwoWayMap

/-- Symbols in order of declaration, with their names and slots in a map. -/
structure IndexedTable (μ : Type) where
  index : μ
  symbols : Array Symbol

namespace IndexedTable

variable {μ : Type} (maps : TwoWayMap μ)

def empty : IndexedTable μ := ⟨maps.empty, #[]⟩

/-- Declares a symbol in the next slot, or gives it back if the map refuses its name. -/
def insert (table : IndexedTable μ) (symbol : Symbol) : Except Symbol Nat × IndexedTable μ :=
  match maps.insertNew table.index symbol.name table.symbols.size with
  | (true, index) => (.ok table.symbols.size, ⟨index, table.symbols.push symbol⟩)
  | (false, index) => (.error symbol, { table with index := index })

/-- Declares one symbol after another, and keeps the answers. -/
def insertAll (table : IndexedTable μ) :
    List Symbol → List (Except Symbol Nat) × IndexedTable μ
  | [] => ([], table)
  | symbol :: more =>
    let (answer, next) := table.insert maps symbol
    let (answers, last) := next.insertAll more
    (answer :: answers, last)

end IndexedTable

/-! ### Sequences of declarations -/

namespace SymbolTable

variable {table : SymbolTable} {symbol : Symbol} {name : String} {slot : Nat}

/-- Declares a symbol, if its name is not taken. -/
def declare (table : SymbolTable) (symbol : Symbol) : SymbolTable :=
  (table.insert? symbol).getD table

/-- Declares one symbol after another. -/
def declareAll (table : SymbolTable) (symbols : List Symbol) : SymbolTable :=
  symbols.foldl declare table

/-- No two symbols share a name. -/
def IsDistinct (table : SymbolTable) : Prop := (table.symbols.toList.map Symbol.name).Nodup

/-- A symbol is declared in the next slot, and refused if its name has one. -/
theorem declare_cases (table : SymbolTable) (symbol : Symbol) :
    (∃ slot, table.slot? symbol.name = some slot ∧ table.insert? symbol = none ∧
        table.declare symbol = table) ∨
      table.slot? symbol.name = none ∧ table.insert? symbol = some ⟨table.symbols.push symbol⟩ ∧
        table.declare symbol = ⟨table.symbols.push symbol⟩ := by
  unfold declare insert?
  cases table.slot? symbol.name with
  | none => exact .inr ⟨rfl, rfl, rfl⟩
  | some slot => exact .inl ⟨slot, rfl, rfl, rfl⟩

theorem slot?_push (h : table.slot? symbol.name = none) : slot? ⟨table.symbols.push symbol⟩ name
    = if name = symbol.name then some table.size else table.slot? name := by
  unfold slot? at h ⊢
  rw [Array.findIdx?_push]
  by_cases hname : name = symbol.name
  · simp [hname, h, size]
  · simp [hname, Ne.symm hname]

theorem name?_push : name? ⟨table.symbols.push symbol⟩ slot
    = if slot = table.size then some symbol.name else table.name? slot := by
  unfold name? size
  rw [Array.getElem?_push]
  split <;> rfl

theorem name?_size (table : SymbolTable) : table.name? table.size = none := by
  simp [name?, size]

theorem isDistinct_empty : empty.IsDistinct := List.nodup_nil

theorem IsDistinct.declare (h : table.IsDistinct) (symbol : Symbol) :
    (table.declare symbol).IsDistinct := by
  obtain ⟨-, -, -, hsame⟩ | ⟨-, hinsert, hpush⟩ := table.declare_cases symbol
  · rwa [hsame]
  · rw [hpush]
    exact nodup_push h (insert?_eq_some.mp hinsert).1

theorem IsDistinct.declareAll (h : table.IsDistinct) (symbols : List Symbol) :
    (table.declareAll symbols).IsDistinct :=
  List.foldlRecOn symbols SymbolTable.declare h fun _ hnext symbol _ => hnext.declare symbol

/-- A symbol keeps its slot when another one is declared. -/
theorem getElem?_declare (h : table.symbols[slot]? = some symbol) (other : Symbol) :
    (table.declare other).symbols[slot]? = some symbol := by
  obtain ⟨-, -, -, hsame⟩ | ⟨-, -, hpush⟩ := table.declare_cases other
  · rwa [hsame]
  · have hlt := (Array.getElem?_eq_some_iff.mp h).1
    rw [hpush, Array.getElem?_push_lt hlt]
    exact (Array.getElem?_eq_getElem hlt).symm.trans h

/-- A symbol keeps its slot, whatever is declared. -/
theorem getElem?_declareAll (h : table.symbols[slot]? = some symbol) (symbols : List Symbol) :
    (table.declareAll symbols).symbols[slot]? = some symbol := by
  induction symbols generalizing table with
  | nil => exact h
  | cons other symbols ih => exact ih (getElem?_declare h other)

theorem declareAll_append (table : SymbolTable) (first second : List Symbol) :
    table.declareAll (first ++ second) = (table.declareAll first).declareAll second :=
  List.foldl_append

/-- A name keeps its slot, whatever is declared. -/
theorem IsDistinct.slot?_declareAll (hdistinct : table.IsDistinct)
    (h : table.slot? name = some slot) (symbols : List Symbol) :
    (table.declareAll symbols).slot? name = some slot := by
  rw [slot?_eq_some (hdistinct.declareAll symbols)]
  rw [slot?_eq_some hdistinct, name?, Option.map_eq_some_iff] at h
  obtain ⟨symbol, hsymbol, rfl⟩ := h
  rw [name?, getElem?_declareAll hsymbol]
  rfl

end SymbolTable

/-! ### Both tables in step -/

namespace IndexedTable

variable {μ : Type} {maps : TwoWayMap μ} {table : IndexedTable μ} {plain : SymbolTable}
  {symbol : Symbol}

/-- The map of a table answers as a search of the symbols does. -/
structure Mirrors (maps : TwoWayMap μ) (table : IndexedTable μ) (plain : SymbolTable) : Prop where
  symbols_eq : table.symbols = plain.symbols
  slot?_eq : ∀ name, maps.slot? table.index name = plain.slot? name
  name?_eq : ∀ slot, maps.name? table.index slot = plain.name? slot

theorem Mirrors.empty (hmaps : maps.Lawful) : Mirrors maps (empty maps) .empty where
  symbols_eq := rfl
  slot?_eq name := (hmaps.slot?_empty name).trans Array.findIdx?_empty.symm
  name?_eq := hmaps.name?_empty

/-- The map refuses a symbol exactly if its name is taken: the next slot never is. -/
theorem Mirrors.refuses_iff (hmaps : maps.Lawful) (h : Mirrors maps table plain) :
    (maps.insertNew table.index symbol.name table.symbols.size).1 = false ↔
      plain.slot? symbol.name ≠ none := by
  have hnext : maps.name? table.index table.symbols.size = none := by
    rw [h.name?_eq, h.symbols_eq]
    exact plain.name?_size
  rw [hmaps.refuses, hnext, h.slot?_eq]
  exact or_iff_left (fun hne => hne rfl)

/-- A name that is taken is refused, and the symbol given back. -/
theorem Mirrors.insert_of_taken (hmaps : maps.Lawful) (h : Mirrors maps table plain)
    (htaken : plain.slot? symbol.name ≠ none) :
    table.insert maps symbol = (.error symbol, table) := by
  have hrefused := (h.refuses_iff hmaps).mpr htaken
  have hindex := hmaps.unchanged _ _ _ hrefused
  unfold insert
  split
  next hinsert => rw [hinsert] at hrefused; cases hrefused
  next index hinsert =>
    rw [hinsert] at hindex
    rw [show index = table.index from hindex]

/-- A new name gets the next slot. -/
theorem Mirrors.insert_of_new (hmaps : maps.Lawful) (h : Mirrors maps table plain)
    (hnew : plain.slot? symbol.name = none) :
    (table.insert maps symbol).1 = .ok plain.size ∧
      Mirrors maps (table.insert maps symbol).2 ⟨plain.symbols.push symbol⟩ := by
  have haccepted : (maps.insertNew table.index symbol.name table.symbols.size).1 = true := by
    rw [← Bool.not_eq_false, h.refuses_iff hmaps]
    exact fun hne => hne hnew
  have hslot := hmaps.slot?_insertNew _ _ _ haccepted
  have hname := hmaps.name?_insertNew _ _ _ haccepted
  unfold insert
  split
  next index hinsert =>
    rw [hinsert] at hslot hname
    refine ⟨by rw [h.symbols_eq]; rfl, by rw [h.symbols_eq], fun name => ?_, fun slot => ?_⟩
    · rw [hslot, SymbolTable.slot?_push hnew, h.slot?_eq, h.symbols_eq]
      rfl
    · rw [hname, SymbolTable.name?_push, h.name?_eq, h.symbols_eq]
      rfl
  next hinsert => rw [hinsert] at haccepted; cases haccepted

/-- **One declaration** keeps the tables in step, and the slot it hands out is the next one. -/
theorem Mirrors.insert (hmaps : maps.Lawful) (h : Mirrors maps table plain) (symbol : Symbol) :
    Mirrors maps (table.insert maps symbol).2 (plain.declare symbol) ∧
      List.range plain.size ++ (table.insert maps symbol).1.toOption.toList
        = List.range (plain.declare symbol).size := by
  obtain ⟨slot, htaken, -, hsame⟩ | ⟨hnew, -, hpush⟩ := plain.declare_cases symbol
  · rw [h.insert_of_taken hmaps (by simp [htaken]), hsame]
    exact ⟨h, List.append_nil _⟩
  · obtain ⟨hanswer, hnext⟩ := h.insert_of_new hmaps hnew
    rw [hanswer, hpush]
    refine ⟨hnext, ?_⟩
    have hsize : SymbolTable.size ⟨plain.symbols.push symbol⟩ = plain.size + 1 := Array.size_push _
    rw [hsize, List.range_succ]
    rfl

/-- **Any declarations** keep the tables in step, and hand out one slot after the other. -/
theorem Mirrors.insertAll (hmaps : maps.Lawful) (h : Mirrors maps table plain)
    (symbols : List Symbol) :
    Mirrors maps (table.insertAll maps symbols).2 (plain.declareAll symbols) ∧
      List.range plain.size ++ (table.insertAll maps symbols).1.filterMap Except.toOption
        = List.range (plain.declareAll symbols).size := by
  induction symbols generalizing table plain with
  | nil => exact ⟨h, List.append_nil _⟩
  | cons symbol symbols ih =>
    obtain ⟨hnext, hslot⟩ := h.insert hmaps symbol
    obtain ⟨hlast, hslots⟩ := ih hnext
    refine ⟨hlast, ?_⟩
    have hcons : (table.insertAll maps (symbol :: symbols)).1.filterMap Except.toOption
        = (table.insert maps symbol).1.toOption.toList
          ++ ((table.insert maps symbol).2.insertAll maps symbols).1.filterMap Except.toOption := by
      rw [IndexedTable.insertAll, List.filterMap_cons]
      cases (table.insert maps symbol).1.toOption <;> rfl
    rw [hcons, ← List.append_assoc, hslot, hslots]
    rfl

end IndexedTable

/-! ### Names and operands -/

/-- The word names a symbol's register, and that register is the one bound to the name. -/
def SharesRegister (word : Word) (table : SymbolTable) (name : String) : Prop :=
  ∃ slot, Address.decode? word = some (.symbol slot) ∧
    ∀ (registers : Registers) (constants : Array Value),
      (∀ value, registers.read constants (.symbol slot) = .ok value ↔
        Bindings.value? ⟨table, registers.symbols⟩ name = some value) ∧
      ∀ change, (Bindings.modify ⟨table, registers.symbols⟩ name change).values
        = registers.symbols.modify slot change

theorem sharesRegister_word {table : SymbolTable} {name : String} {slot : Nat}
    (hslot : table.slot? name = some slot) (hlt : slot < 0x40000000) :
    SharesRegister (Address.symbol slot).word table name := by
  refine ⟨slot, Address.decode?_word hlt, fun registers constants => ⟨fun value => ?_, fun change => ?_⟩⟩
  · simp [Registers.read, Bindings.value?, hslot]
  · simp [Bindings.modify, hslot]

namespace Draft

variable {draft : Draft} {name : String} {slot : Nat}

theorem address_symbolNamed (h : draft.symbols.slot? name = some slot) :
    draft.address (.symbolNamed name) = .ok (.symbol slot) := by
  simp [address, h]

/-- The operand `@name` has a word if the name is declared, in a slot that fits. -/
theorem addressWord_symbolNamed {word : Word} :
    draft.addressWord (.symbolNamed name) = .ok word ↔
      ∃ slot, draft.symbols.slot? name = some slot ∧ slot < 0x40000000 ∧
        word = (Address.symbol slot).word := by
  rw [addressWord_eq_ok]
  constructor
  · rintro ⟨address, haddress, hindex, rfl⟩
    obtain ⟨_, ⟨⟩, -⟩ | ⟨_, ⟨⟩, -⟩ | ⟨_, ⟨⟩, -⟩ | ⟨_, slot, ⟨⟩, hslot, rfl⟩ := address_cases haddress
    exact ⟨slot, hslot, hindex, rfl⟩
  · rintro ⟨slot, hslot, hlt, rfl⟩
    exact ⟨_, address_symbolNamed hslot, hlt, rfl⟩

end Draft

namespace TwoWayMap

variable {μ : Type} {maps : TwoWayMap μ}

/-- **Slots and names.**  Whatever was declared and refused, a name has a slot exactly if the symbol in
    that slot has the name, and the map answers both ways as the symbols do.  Slots are handed out one
    after the other and stay as they are.  A symbol is refused and given back exactly if its name has
    a slot, and nothing changes then.  So an operand `@name` leads to the register that is bound to
    the name, also when more is declared later on. -/
theorem Lawful.keeps_slots (hmaps : maps.Lawful) (attempts later : List Symbol) :
    let answers := ((IndexedTable.empty maps).insertAll maps attempts).1
    let table := ((IndexedTable.empty maps).insertAll maps attempts).2
    let plain := SymbolTable.empty.declareAll attempts
    let last := SymbolTable.empty.declareAll (attempts ++ later)
    IndexedTable.Mirrors maps table plain ∧
      (∀ name slot,
        (plain.slot? name = some slot ↔
          ∃ h : slot < plain.symbols.size, plain.symbols[slot].name = name) ∧
        (plain.slot? name = some slot ↔ plain.name? slot = some name)) ∧
      answers.filterMap Except.toOption = List.range plain.size ∧
      (∀ name slot, plain.slot? name = some slot →
        last.slot? name = some slot ∧ last.symbols[slot]? = plain.symbols[slot]?) ∧
      (∀ symbol, table.insert maps symbol = (.error symbol, table) ∧ plain.insert? symbol = none ↔
        ∃ slot, plain.slot? symbol.name = some slot) ∧
      (∀ symbol, (table.insert maps symbol).1 = .ok plain.size ∧
          plain.insert? symbol = some ⟨plain.symbols.push symbol⟩ ↔
        plain.slot? symbol.name = none) ∧
      (plain.size < 0x40000000 → ∀ draft : Draft, draft.symbols = plain → ∀ name,
        ((∃ word, draft.addressWord (.symbolNamed name) = .ok word) ↔
          ∃ slot, plain.slot? name = some slot) ∧
        ∀ word, draft.addressWord (.symbolNamed name) = .ok word → SharesRegister word last name) := by
  intro answers table plain last
  have hdistinct : plain.IsDistinct := SymbolTable.isDistinct_empty.declareAll attempts
  have hlast : last = plain.declareAll later := SymbolTable.empty.declareAll_append attempts later
  obtain ⟨hmirrors, hslots⟩ :
      IndexedTable.Mirrors maps table plain ∧ answers.filterMap Except.toOption = List.range plain.size :=
    (IndexedTable.Mirrors.empty hmaps).insertAll hmaps attempts
  have hkept : ∀ name slot, plain.slot? name = some slot → last.slot? name = some slot :=
    fun name slot hslot => hlast ▸ hdistinct.slot?_declareAll hslot later
  have hsymbol : ∀ name slot, plain.slot? name = some slot ↔
      ∃ h : slot < plain.symbols.size, plain.symbols[slot].name = name := by
    intro name slot
    rw [SymbolTable.slot?_eq_some hdistinct, SymbolTable.name?, Option.map_eq_some_iff]
    simp only [Array.getElem?_eq_some_iff]
    constructor
    · rintro ⟨_, ⟨hlt, rfl⟩, hname⟩
      exact ⟨hlt, hname⟩
    · rintro ⟨hlt, hname⟩
      exact ⟨_, ⟨hlt, rfl⟩, hname⟩
  refine ⟨hmirrors, fun name slot => ⟨hsymbol name slot, SymbolTable.slot?_eq_some hdistinct⟩, hslots,
    fun name slot hslot => ⟨hkept name slot hslot, ?_⟩, fun symbol => ?_, fun symbol => ?_,
    fun hsize draft hdraft name => ?_⟩
  · obtain ⟨hlt, -⟩ := (hsymbol name slot).mp hslot
    rw [hlast, Array.getElem?_eq_getElem hlt]
    exact SymbolTable.getElem?_declareAll (Array.getElem?_eq_getElem hlt) later
  · obtain ⟨slot, htaken, hinsert, -⟩ | ⟨hnew, hinsert, -⟩ := plain.declare_cases symbol
    · exact iff_of_true ⟨hmirrors.insert_of_taken hmaps (by simp [htaken]), hinsert⟩ ⟨slot, htaken⟩
    · simp [hnew, hinsert]
  · obtain ⟨slot, htaken, hinsert, -⟩ | ⟨hnew, hinsert, -⟩ := plain.declare_cases symbol
    · simp [htaken, hinsert]
    · exact iff_of_true ⟨(hmirrors.insert_of_new hmaps hnew).1, hinsert⟩ hnew
  · have hfits : ∀ slot, plain.slot? name = some slot → slot < 0x40000000 := by
      intro slot hslot
      obtain ⟨hlt, -⟩ := (hsymbol name slot).mp hslot
      exact Nat.lt_trans hlt hsize
    simp only [Draft.addressWord_symbolNamed, hdraft]
    constructor
    · constructor
      · rintro ⟨-, slot, hslot, -⟩
        exact ⟨slot, hslot⟩
      · rintro ⟨slot, hslot⟩
        exact ⟨_, slot, hslot, hfits slot hslot, rfl⟩
    · rintro word ⟨slot, hslot, hlt, rfl⟩
      exact sharesRegister_word (hkept name slot hslot) hlt

/-- Pairs in a list. -/
def pairs : TwoWayMap (List (String × Nat)) where
  empty := []
  slot? pairs name := (pairs.find? (·.1 = name)).map (·.2)
  name? pairs slot := (pairs.find? (·.2 = slot)).map (·.1)
  insertNew pairs name slot :=
    if pairs.any fun pair => pair.1 = name || pair.2 = slot then (false, pairs)
    else (true, (name, slot) :: pairs)

theorem pairs_lawful : pairs.Lawful where
  slot?_empty _ := rfl
  name?_empty _ := rfl
  refuses index name slot := by
    simp only [pairs]
    split
    next h =>
      simp only [List.any_eq_true, Bool.or_eq_true, decide_eq_true_eq] at h
      obtain ⟨pair, hmem, rfl | rfl⟩ := h
      · simpa using .inl ⟨_, hmem⟩
      · simpa using .inr ⟨_, hmem⟩
    next h =>
      simp only [List.any_eq_true, Bool.or_eq_true, decide_eq_true_eq, not_exists, not_and, not_or] at h
      simp only [Bool.true_eq_false, false_iff, not_or, not_not, Option.map_eq_none_iff,
        List.find?_eq_none, decide_eq_true_eq]
      exact ⟨fun pair hmem => (h pair hmem).1, fun pair hmem => (h pair hmem).2⟩
  unchanged index name slot := by
    simp only [pairs]
    split <;> simp
  slot?_insertNew index name slot := by
    simp only [pairs]
    split
    · simp
    · intro _ other
      by_cases h : name = other <;> simp [h, eq_comm]
  name?_insertNew index name slot := by
    simp only [pairs]
    split
    · simp
    · intro _ other
      by_cases h : slot = other <;> simp [h, eq_comm]

/-- Two symbols, a third one that is refused, and a fourth one later on. -/
theorem Lawful.keeps_slots_of_repeated_name :
    let x : Symbol := ⟨"x", .global, .float, .varying, none⟩
    let y : Symbol := ⟨"y", .parameter, .float, .uniform, none⟩
    let again : Symbol := ⟨"x", .variable, .point, .varying, none⟩
    let z : Symbol := ⟨"z", .variable, .color, .varying, none⟩
    let table := ((IndexedTable.empty pairs).insertAll pairs [x, y, again]).2
    let draft := { Draft.new with symbols := SymbolTable.empty.declareAll [x, y, again] }
    let last := SymbolTable.empty.declareAll [x, y, again, z]
    pairs.Lawful ∧ table.insert pairs again = (.error again, table) ∧ last.slot? "y" = some 1 ∧
      ∃ word, draft.addressWord (.symbolNamed "y") = .ok word ∧ SharesRegister word last "y" := by
  intro x y again z table draft last
  obtain ⟨-, -, -, hkept, hrefused, -, hshared⟩ :=
    pairs_lawful.keeps_slots [x, y, again] [z]
  have hfirst : (SymbolTable.empty.declareAll [x, y, again]).slot? "x" = some 0 := by decide +kernel
  have hsecond : (SymbolTable.empty.declareAll [x, y, again]).slot? "y" = some 1 := by decide +kernel
  obtain ⟨hnamed, hall⟩ := hshared (by decide +kernel) draft rfl "y"
  obtain ⟨word, hword⟩ := hnamed.mpr ⟨1, hsecond⟩
  exact ⟨pairs_lawful, ((hrefused again).mpr ⟨0, hfirst⟩).1, (hkept "y" 1 hsecond).1, word, hword,
    hall word hword⟩

end TwoWayMap

end Shading
