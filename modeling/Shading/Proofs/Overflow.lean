import Shading.Proofs.Slices
import Shading.Proofs.TwoPass

namespace Shading

/-!
# Addresses that do not fit

The index of an address has thirty bits in an operand word, and may be written with thirty-two.  Constants
and symbols must have been declared before they are named, and no text of sensible length declares so
many.  Any temporary can be named, though, and one with an index too large is the only thing that makes
the assembler fault.

* `Opcode.addressOperands`, `Opcode.addressPlace` — the operands that are addresses, and where they go;
* `Scope.Names` — the address that an operand names;
* `Scope.IsOperation` — a line whose operands are about to be encoded;
* `Overflows` — the first thing that is wrong with a text is an index too large;
* `assemble_faults_only_by_overflow` — how assembling can end.
-/

/-- The operands that are addresses. -/
def Opcode.addressOperands (operands : List Operand) : Opcode → List Operand
  | .jump _ => []
  | .call => operands.drop 1
  | .convert => operands.take 2
  | _ => operands

/-- The place of an address, counted from the instruction word.  In a call, the function stands before
    the first address and the number of arguments before the second. -/
def Opcode.addressPlace (opcode : Opcode) (k : Nat) : Nat :=
  if opcode = .call then if k = 0 then 2 else k + 3 else k + 1

/-- A call is to a function with so many arguments. -/
def Opcode.Suits (operands : List Operand) (opcode : Opcode) : Prop :=
  opcode = .call → ∃ name, ∃ function : Builtin, operands[0]? = some (.word name) ∧
    Vocabulary.ofName? name = some function ∧
    function.arity.1 + 2 ≤ operands.length ∧ operands.length ≤ function.arity.2 + 2

theorem Opcode.addressOperands_plain {opcode : Opcode} (h : opcode.isPlain = true)
    (operands : List Operand) : opcode.addressOperands operands = operands := by
  cases opcode <;> first | rfl | cases h

theorem Opcode.addressPlace_of_ne {opcode : Opcode} (h : opcode ≠ .call) (k : Nat) :
    opcode.addressPlace k = k + 1 := if_neg h

namespace Scope

/-- The address that an operand names, given what has been declared. -/
inductive Names (scope : Scope) : Operand → Address → Prop
  | constant {i : Nat} (h : i < scope.constants.size) : Names scope (.constant i) (.constant i)
  | temporary (i : Nat) : Names scope (.temporary i) (.temporary i)
  | symbol {i : Nat} (h : i < scope.symbols.size) : Names scope (.symbol i) (.symbol i)
  | symbolNamed {name : String} {slot : Nat} (h : scope.symbols.name? slot = some name) :
      Names scope (.symbolNamed name) (.symbol slot)

/-- A line with an operation, and nothing wrong with it as far as its addresses are not looked at. -/
structure IsOperation (scope : Scope) (text : List Char) (opcode : Opcode)
    (operands : List Operand) : Prop where
  parse : ∃ label mnemonic key, Line.parse? (beforeComment text)
      = some ⟨label, some (.operation mnemonic key operands)⟩ ∧
    (∀ name, label = some name → name ∉ scope.labels) ∧
    Vocabulary.ofName? mnemonic = some opcode ∧ ∃ key', Draft.readKey opcode key = .ok key'
  count : operands.length = opcode.operandCount?.getD (max operands.length 2)
  suits : opcode.Suits operands

end Scope

/-- Of some lines, the first that is not accepted has an operand whose address does not fit in a word, and
    nothing else is wrong with it up to there. -/
inductive Overflows : List (List Char) → Operand → Nat → Prop
  | line {before after : List (List Char)} {text : List Char} {scope : Scope} {entries : List Entry}
      {opcode : Opcode} {operands earlier later : List Operand} {operand : Operand} {address : Address}
      (hbefore : Accepted before scope entries) (hline : scope.IsOperation text opcode operands)
      (hoperands : opcode.addressOperands operands = earlier ++ operand :: later)
      (hearlier : ∀ other ∈ earlier, ∃ address, scope.Names other address ∧
        address.index < 0x40000000)
      (hnames : scope.Names operand address) (hindex : 0x40000000 ≤ address.index) :
      Overflows (before ++ text :: after) operand address.index

/-! ### Operations that fault -/

section Faults

variable {ε α β : Type} {fault : Fault}

/-- A sequence of two computations faults if one of them does, and the second only if it is reached. -/
@[simp] theorem bind_eq_fault {x : Except (Failure ε) α} {f : α → Except (Failure ε) β} :
    (x >>= f) = .error (.fault fault) ↔
      x = .error (.fault fault) ∨ ∃ a, x = .ok a ∧ f a = .error (.fault fault) := by
  cases x <;> simp [bind, Except.bind]

@[simp] theorem pure_ne_fault {a : α} : (pure a : Except (Failure ε) α) ≠ .error (.fault fault) := by
  simp [pure, Except.pure]

@[simp] theorem map_eq_fault {x : Except (Failure ε) α} {g : α → β} :
    (g <$> x) = .error (.fault fault) ↔ x = .error (.fault fault) := by
  cases x <;> simp [Functor.map, Except.map]

@[simp] theorem throw_error_ne_fault {e : ε} :
    (throw (.error e) : Except (Failure ε) α) ≠ .error (.fault fault) := by
  simp [throw, throwThe, MonadExceptOf.throw]

@[simp] theorem mapError_error_ne_fault {x : Except ε α} :
    x.mapError Failure.error ≠ .error (.fault fault) := by
  cases x <;> simp [Except.mapError]

end Faults

namespace Draft

variable {draft : Draft} {line : Nat} {operand : Operand} {operands : List Operand} {fault : Fault}

theorem addressWord_eq_fault : draft.addressWord operand = .error (.fault fault) ↔
    ∃ address, draft.address operand = .ok address ∧ 0x40000000 ≤ address.index ∧
      fault = .addressIndex address.index := by
  unfold addressWord Address.encode?
  cases draft.address operand with
  | error cause => simp
  | ok address =>
    by_cases hindex : address.index < 0x40000000
    · simp [hindex, Nat.not_le.mpr hindex]
    · simp [hindex, Nat.not_lt.mp hindex, throw, throwThe, MonadExceptOf.throw, eq_comm]

/-- Operands are encoded one by one, up to the first that does not fit. -/
theorem addressSlots_eq_fault : draft.addressSlots operands = .error (.fault fault) ↔
    ∃ earlier operand later address, operands = earlier ++ operand :: later ∧
      (∀ other ∈ earlier, ∃ address, draft.address other = .ok address ∧
        address.index < 0x40000000) ∧
      draft.address operand = .ok address ∧ 0x40000000 ≤ address.index ∧
      fault = .addressIndex address.index := by
  induction operands with
  | nil =>
    refine iff_of_false (by simp [addressSlots]) ?_
    rintro ⟨earlier, _, _, _, hsplit, -⟩
    simp at hsplit
  | cons first operands ih =>
    simp only [addressSlots_cons, bind_eq_fault, pure_ne_fault, addressWord_eq_fault,
      addressWord_eq_ok, and_false, exists_false, or_false, ih]
    constructor
    · rintro (⟨address, haddress, hindex, rfl⟩ |
        ⟨_, ⟨address, haddress, hindex, rfl⟩, earlier, operand, later, other, rfl, hearlier, hother⟩)
      · exact ⟨[], first, operands, address, rfl, by simp, haddress, hindex, rfl⟩
      · exact ⟨first :: earlier, operand, later, other, rfl,
          List.forall_mem_cons.mpr ⟨⟨address, haddress, hindex⟩, hearlier⟩, hother⟩
    · rintro ⟨earlier, operand, later, address, hsplit, hearlier, haddress, hindex, rfl⟩
      cases earlier with
      | nil =>
        obtain ⟨rfl, -⟩ := List.cons.inj hsplit
        exact .inl ⟨address, haddress, hindex, rfl⟩
      | cons other earlier =>
        obtain ⟨rfl, rfl⟩ := List.cons.inj hsplit
        obtain ⟨⟨other, hother, hfits⟩, hearlier⟩ := List.forall_mem_cons.mp hearlier
        exact .inr ⟨other.word, ⟨other, hother, hfits, rfl⟩, earlier, operand, later, address, rfl,
          hearlier, haddress, hindex, rfl⟩

theorem operandSlots_eq_fault {opcode : Opcode}
    (hcount : operands.length = opcode.operandCount?.getD (max operands.length 2)) :
    draft.operandSlots line opcode operands = .error (.fault fault) ↔ opcode.Suits operands ∧
      draft.addressSlots (opcode.addressOperands operands) = .error (.fault fault) := by
  obtain hplain | ⟨condition, target, rfl, rfl⟩ | ⟨function, result, arguments, rfl, rfl⟩ |
    ⟨result, source, type, rfl, rfl⟩ := Opcode.operands_cases hcount
  · have hsuits : opcode.Suits operands := by
      rintro rfl
      cases hplain
    rw [operandSlots_plain hplain, Opcode.addressOperands_plain hplain]
    exact (and_iff_right hsuits).symm
  · simp [operandSlots, Opcode.addressOperands, addressSlots]
  · simp only [operandSlots, bind_eq_fault, mapError_error_ne_fault, false_or, mapError_eq_ok,
      oneOf_eq_ok, Opcode.addressOperands, List.drop_one, List.tail_cons, addressSlots_cons]
    constructor
    · rintro ⟨function', ⟨name, rfl, hname⟩, h⟩
      split at h
      next => simp at h
      next hleast =>
        split at h
        next => simp at h
        next hmost =>
          refine ⟨fun _ => ⟨name, function', rfl, hname, ?_, ?_⟩, by simpa using h⟩
          · simpa using hleast
          · simpa using hmost
    · rintro ⟨hsuits, h⟩
      obtain ⟨name, function', hfunction, hname, hleast, hmost⟩ := hsuits rfl
      obtain rfl := Option.some.inj hfunction
      have hleast : ¬ arguments.length < function'.arity.1 := by simpa using hleast
      have hmost : ¬ function'.arity.2 < arguments.length := by simpa using hmost
      refine ⟨function', ⟨name, rfl, hname⟩, ?_⟩
      rw [if_neg hleast, if_neg hmost]
      simpa using h
  · have hsuits : Opcode.convert.Suits [result, source, type] := by
      rintro ⟨⟩
    simp [operandSlots, Opcode.addressOperands, hsuits]

theorem emit_eq_fault {mnemonic : String} {key : Option String} :
    draft.emit line mnemonic key operands = .error (.fault fault) ↔ ∃ opcode : Opcode, ∃ key',
      Vocabulary.ofName? mnemonic = some opcode ∧ readKey opcode key = .ok key' ∧
      operands.length = opcode.operandCount?.getD (max operands.length 2) ∧
      opcode.Suits operands ∧
      draft.addressSlots (opcode.addressOperands operands) = .error (.fault fault) := by
  unfold emit
  cases (Vocabulary.ofName? mnemonic : Option Opcode) with
  | none => simp
  | some opcode =>
    simp only [pure_bind, bind_eq_fault, mapError_error_ne_fault, false_or, mapError_eq_ok]
    constructor
    · rintro ⟨key', hkey, h⟩
      split at h
      next => simp at h
      next hcount =>
        have hcount := Decidable.not_not.mp hcount
        rw [bind_pure_comp, map_eq_fault, operandSlots_eq_fault hcount] at h
        exact ⟨opcode, key', rfl, hkey, hcount, h⟩
    · rintro ⟨_, key', ⟨⟩, hkey, hcount, h⟩
      refine ⟨key', hkey, ?_⟩
      rw [if_neg (not_not_intro hcount), bind_pure_comp, map_eq_fault, operandSlots_eq_fault hcount]
      exact h

end Draft

namespace Scope

variable {scope : Scope} {number : Nat} {text : List Char} {fault : Fault}

/-- A label that is new can be declared, and changes no other declaration. -/
theorem exists_declare {label : Option String} :
    (∃ next, scope.declare label = .ok next ∧ next.draft = scope.draft) ↔
      ∀ name, label = some name → name ∉ scope.labels := by
  constructor
  · rintro ⟨next, hnext, -⟩
    exact (declare_eq_ok hnext).1
  · intro hfresh
    cases label with
    | none => exact ⟨scope, rfl, rfl⟩
    | some label => exact ⟨_, if_neg (hfresh label rfl), rfl⟩

theorem draft_of_declare {label : Option String} {next : Scope} (h : scope.declare label = .ok next) :
    next.draft = scope.draft := by
  obtain ⟨other, hother, hdraft⟩ := exists_declare.mpr (declare_eq_ok h).1
  obtain rfl := Except.ok.inj (h.symm.trans hother)
  exact hdraft

theorem onLine_eq_fault {α : Type} {result : Except (Failure AssemblyCause) α} :
    Draft.onLine number result = .error (.fault fault) ↔ result = .error (.fault fault) := by
  rcases result with (_ | _) | _ <;> simp [Draft.onLine, Except.mapError]

/-- A line faults only if it has an operation with an address that does not fit. -/
theorem readLine_eq_fault : scope.readLine number text = .error (.fault fault) ↔
    ∃ opcode operands, scope.IsOperation text opcode operands ∧
      scope.draft.addressSlots (opcode.addressOperands operands) = .error (.fault fault) := by
  constructor
  · intro h
    unfold readLine at h
    split at h
    next line hparse =>
      obtain ⟨label, statement⟩ := line
      simp only [onLine_eq_fault, accept, bind_eq_fault, mapError_error_ne_fault, false_or,
        mapError_eq_ok] at h
      obtain ⟨declared, hdeclared, h⟩ := h
      have hfresh := (declare_eq_ok hdeclared).1
      cases statement with
      | none => cases h
      | some statement =>
        cases statement with
        | directive name arguments => simp [acceptStatement] at h
        | operation mnemonic key operands =>
          simp only [acceptStatement, bind_pure_comp, map_eq_fault, Draft.emit_eq_fault,
            draft_of_declare hdeclared] at h
          obtain ⟨opcode, key', hopcode, hkey, hcount, hsuits, hslots⟩ := h
          exact ⟨opcode, operands, ⟨⟨label, mnemonic, key, hparse, hfresh, hopcode, key', hkey⟩,
            hcount, hsuits⟩, hslots⟩
    next => simp at h
  · rintro ⟨opcode, operands, ⟨⟨label, mnemonic, key, hparse, hfresh, hopcode, key', hkey⟩, hcount,
      hsuits⟩, hslots⟩
    obtain ⟨declared, hdeclared, hdraft⟩ := exists_declare.mpr hfresh
    unfold readLine
    rw [hparse]
    simp only [onLine_eq_fault, accept, bind_eq_fault, mapError_error_ne_fault, false_or,
      mapError_eq_ok, acceptStatement, bind_pure_comp, map_eq_fault, Draft.emit_eq_fault]
    refine ⟨declared, hdeclared, opcode, key', hopcode, hkey, hcount, hsuits, ?_⟩
    rw [hdraft]
    exact hslots

end Scope

/-! ### What is declared -/

/-- What has been declared in some lines: no name is taken twice, and nothing is declared without being
    written. -/
structure Scope.Tallies (scope : Scope) (lines : List (List Char)) : Prop where
  distinct : (scope.symbols.symbols.toList.map Symbol.name).Nodup
  size_le : scope.constants.size + scope.symbols.size ≤ lines.flatten.length

theorem length_inGroups_le {α : Type} (width : Nat) (xs : List α) :
    (inGroups width xs).length ≤ xs.length := by
  rw [inGroups, List.length_map, List.length_range]
  rcases Nat.eq_zero_or_pos width with rfl | hwidth
  · simp
  · rw [← Nat.lt_succ_iff, Nat.div_lt_iff_lt_mul hwidth, Nat.succ_mul]
    have hle : xs.length ≤ xs.length * width := Nat.le_mul_of_pos_right _ hwidth
    omega

theorem length_beforeComment_le (text : List Char) : (beforeComment text).length ≤ text.length := by
  unfold beforeComment
  generalize false = quoted
  induction text generalizing quoted with
  | nil => exact Nat.le_refl _
  | cons c text ih =>
    rw [beforeCommentFrom]
    split
    · exact Nat.zero_le _
    · exact Nat.succ_le_succ (ih _)

theorem length_splitLines_le (text : List Char) : (splitLines text).flatten.length ≤ text.length := by
  fun_induction splitLines text with
  | case1 => exact Nat.le_refl _
  | case2 rest ih => exact Nat.le_succ_of_le ih
  | case3 rest ih => exact Nat.le_succ_of_le (Nat.le_succ_of_le ih)
  | case4 c rest _ _ hnil ih => simp
  | case5 c rest _ _ line lines hlines ih =>
    rw [hlines] at ih
    exact Nat.succ_le_succ ih

/-- No argument of a directive is written without a character. -/
theorem Line.length_tokens_le {text : List Char} {label : Option String} {name : String}
    {arguments : List Token} (h : Line.parse? text = some ⟨label, some (.directive name arguments)⟩) :
    arguments.length ≤ text.length := by
  cases isLayout_of_parse? h with
  | mk _ _ hstatement =>
    cases hstatement with
    | some hwritten =>
      cases hwritten with
      | directive _ harguments =>
        have hlength := (harguments.moreOf.imp fun _ _ => Token.IsWritten.spells).length_le
        simp only [List.length_append, List.length_cons]
        omega

namespace Draft

variable {draft next : Draft} {arguments : List Token}

/-- There are no more constants than arguments that describe them. -/
theorem length_constantList_le {values : List Value} (h : constantList arguments = .ok values) :
    values.length ≤ arguments.length := by
  have hdrop : (arguments.drop 1).length ≤ arguments.length := by simp
  simp only [constantList, bind_eq_ok] at h
  obtain ⟨type, -, h⟩ := h
  split at h
  next => exact (mapM_eq_ok.mp h).1 ▸ hdrop
  next =>
    simp only [bind_eq_ok] at h
    obtain ⟨numbers, hnumbers, h⟩ := h
    split at h
    next => simp at h
    next =>
      calc values.length = (inGroups type.components numbers).length := (mapM_eq_ok.mp h).1.symm
        _ ≤ numbers.length := length_inGroups_le _ _
        _ = (arguments.drop 1).length := (mapM_eq_ok.mp hnumbers).1.symm
        _ ≤ arguments.length := hdrop

/-- A directive declares no more than it has arguments. -/
theorem directive_tallies {name : String} (h : draft.directive name arguments = .ok next)
    (hdistinct : (draft.symbols.symbols.toList.map Symbol.name).Nodup) :
    (next.symbols.symbols.toList.map Symbol.name).Nodup ∧
      next.constants.size + next.symbols.size
        ≤ draft.constants.size + draft.symbols.size + arguments.length := by
  obtain ⟨kind, symbol, hsymbol, hname, rfl⟩ | ⟨kind, title, -, rfl⟩ | ⟨values, hvalues, rfl⟩ :=
    directive_cases h
  · constructor
    · exact nodup_push hdistinct hname
    · simp only [Draft.symbol, bind_eq_ok] at hsymbol
      obtain ⟨_, -, _, -, _, hword, -⟩ := hsymbol
      have hlt := Strict.lt_of_wordAt hword
      simp only [SymbolTable.size, Array.size_push]
      omega
  · exact ⟨hdistinct, Nat.le_add_right _ _⟩
  · have hle := length_constantList_le hvalues
    have hsize : (draft.constants ++ values).size = draft.constants.size + values.length := by
      rw [← Array.length_toList, Array.toList_appendList, List.length_append, Array.length_toList]
    refine ⟨hdistinct, ?_⟩
    show (draft.constants ++ values).size + draft.symbols.size ≤ _
    omega

end Draft

namespace Scope

variable {scope next : Scope} {number : Nat} {text : List Char} {entry : Entry}
  {lines : List (List Char)}

theorem Tallies.readLine (h : scope.Tallies lines)
    (hline : scope.readLine number text = .ok (next, entry)) : next.Tallies (lines ++ [text]) := by
  have hlength : (lines ++ [text]).flatten.length = lines.flatten.length + text.length := by simp
  have hcomment := length_beforeComment_le text
  unfold Scope.readLine at hline
  split at hline
  next line hparse =>
    obtain ⟨label, statement⟩ := line
    simp only [Draft.onLine_eq_ok, accept, bind_eq_ok, mapError_eq_ok] at hline
    obtain ⟨declared, hdeclared, hline⟩ := hline
    -- a label adds neither constants nor symbols
    have hdraft := draft_of_declare hdeclared
    have hsymbols : declared.symbols = scope.symbols := congrArg Draft.symbols hdraft
    have hconstants : declared.constants = scope.constants := congrArg Draft.constants hdraft
    have hsame : declared.Tallies (lines ++ [text]) := by
      have hle := h.size_le
      exact ⟨hsymbols ▸ h.distinct, by rw [hsymbols, hconstants, hlength]; omega⟩
    cases statement with
    | none =>
      obtain ⟨rfl, -⟩ := Prod.mk.inj (Except.ok.inj hline)
      exact hsame
    | some statement =>
      cases statement with
      | directive name arguments =>
        simp only [acceptStatement, bind_eq_ok, mapError_eq_ok, pure_eq_ok, Prod.mk.injEq] at hline
        obtain ⟨after, hafter, rfl, -⟩ := hline
        rw [hdraft] at hafter
        obtain ⟨hdistinct, hsize⟩ := Draft.directive_tallies hafter h.distinct
        have harguments := Line.length_tokens_le hparse
        have hle : scope.draft.constants.size + scope.draft.symbols.size ≤ lines.flatten.length :=
          h.size_le
        refine ⟨hdistinct, ?_⟩
        show after.constants.size + after.symbols.size ≤ _
        rw [hlength]
        omega
      | operation mnemonic key operands =>
        simp only [acceptStatement, bind_eq_ok, pure_eq_ok, Prod.mk.injEq] at hline
        obtain ⟨slots, -, rfl, -⟩ := hline
        exact hsame
  next => simp at hline

end Scope

theorem Accepted.tallies {lines : List (List Char)} {scope : Scope} {entries : List Entry}
    (h : Accepted lines scope entries) : scope.Tallies lines := by
  induction h with
  | nil => exact ⟨List.nodup_nil, Nat.le_refl _⟩
  | line text _ hline ih => exact ih.readLine hline

/-! ### Addresses and their words -/

/-- What an operand names is what it is taken for. -/
theorem Scope.names_iff {scope : Scope} {operand : Operand} {address : Address}
    (hdistinct : (scope.symbols.symbols.toList.map Symbol.name).Nodup) :
    scope.Names operand address ↔ scope.draft.address operand = .ok address := by
  constructor
  · intro h
    cases h with
    | constant h => exact if_pos h
    | temporary i => rfl
    | symbol h => exact if_pos h
    | symbolNamed h =>
      have hslot : scope.draft.symbols.slot? _ = some _ := (SymbolTable.slot?_eq_some hdistinct).mpr h
      simp only [Draft.address, hslot]
  · intro h
    obtain ⟨i, rfl, hlt, rfl⟩ | ⟨i, rfl, rfl⟩ | ⟨i, rfl, hlt, rfl⟩ | ⟨name, slot, rfl, hslot, rfl⟩ :=
      Draft.address_cases h
    · exact .constant hlt
    · exact .temporary i
    · exact .symbol hlt
    · exact .symbolNamed ((SymbolTable.slot?_eq_some hdistinct).mp hslot)

namespace Draft

variable {draft : Draft} {line : Nat} {operand : Operand} {operands : List Operand} {slots : List Slot}

theorem addressSlots_getElem? (h : draft.addressSlots operands = .ok slots) {k : Nat}
    (hk : operands[k]? = some operand) : ∃ address, draft.address operand = .ok address ∧
      address.index < 0x40000000 ∧ slots[k]? = some (.word address.word) := by
  obtain ⟨addresses, haddresses, hindices, rfl⟩ := addressSlots_eq_ok.mp h
  obtain ⟨address, haddress, hok⟩ := (mapM_eq_ok.mp haddresses).2 k operand hk
  refine ⟨address, hok, hindices address (List.mem_of_getElem? haddress), ?_⟩
  rw [List.getElem?_map, haddress]
  rfl

/-- Each address goes to its place. -/
theorem emit_addressPlace {mnemonic : String} {key : Option String} {opcode : Opcode}
    (hopcode : Vocabulary.ofName? mnemonic = some opcode)
    (h : draft.emit line mnemonic key operands = .ok slots) {k : Nat}
    (hk : (opcode.addressOperands operands)[k]? = some operand) :
    ∃ address, draft.address operand = .ok address ∧ address.index < 0x40000000 ∧
      slots[opcode.addressPlace k]? = some (.word address.word) := by
  obtain ⟨_, key, rest, hopcode', -, hcount, hrest, rfl⟩ := emit_eq_ok.mp h
  obtain rfl := Option.some.inj (hopcode.symm.trans hopcode')
  obtain hplain | ⟨condition, target, rfl, rfl⟩ | ⟨function, result, arguments, rfl, rfl⟩ |
    ⟨result, source, type, rfl, rfl⟩ := Opcode.operands_cases hcount
  · have hne : opcode ≠ .call := by
      rintro rfl
      cases hplain
    rw [Opcode.addressOperands_plain hplain] at hk
    rw [operandSlots_plain hplain] at hrest
    rw [Opcode.addressPlace_of_ne hne, List.getElem?_cons_succ]
    exact addressSlots_getElem? hrest hk
  · simp [Opcode.addressOperands] at hk
  · obtain ⟨_, _, resultWord, slots, -, -, -, -, hresult, hslots, rfl⟩ := operandSlots_call.mp hrest
    cases k with
    | zero =>
      obtain rfl := Option.some.inj hk
      obtain ⟨address, haddress, hindex, rfl⟩ := addressWord_eq_ok.mp hresult
      exact ⟨address, haddress, hindex, rfl⟩
    | succ k => exact addressSlots_getElem? hslots hk
  · obtain ⟨slots, _, _, hslots, -, -, rfl⟩ := operandSlots_convert.mp hrest
    obtain ⟨address, haddress, hindex, hslot⟩ := addressSlots_getElem? hslots hk
    refine ⟨address, haddress, hindex, ?_⟩
    rw [Opcode.addressPlace_of_ne (by rintro ⟨⟩), List.getElem?_cons_succ,
      List.getElem?_append_left (List.getElem?_eq_some_iff.mp hslot).1, hslot]

end Draft

namespace Accepted

variable {lines before after : List (List Char)} {line : List Char} {scope scope' last : Scope}
  {entries entries' all : List Entry}

theorem unique (h : Accepted lines scope entries) (h' : Accepted lines scope' entries') :
    scope = scope' ∧ entries = entries' := by
  induction h generalizing scope' entries' with
  | nil =>
    generalize hlines : ([] : List (List Char)) = lines at h'
    cases h' with
    | nil => exact ⟨rfl, rfl⟩
    | line => simp at hlines
  | @line lines _ _ _ _ text h hline ih =>
    generalize hlines : lines ++ [text] = lines' at h'
    cases h' with
    | nil => simp at hlines
    | line text' h' hline' =>
      obtain ⟨rfl, htext⟩ := List.append_inj' hlines rfl
      obtain rfl := List.singleton_inj.mp htext
      obtain ⟨rfl, rfl⟩ := ih h'
      obtain ⟨rfl, rfl⟩ := Prod.mk.inj (Except.ok.inj (hline.symm.trans hline'))
      exact ⟨rfl, rfl⟩

/-- The last of some lines is accepted after the others. -/
theorem concat_inv (h : Accepted (before ++ [line]) last all) : ∃ scope entries entry,
    Accepted before scope entries ∧ scope.readLine (before.length + 1) line = .ok (last, entry) ∧
      all = entries ++ [entry] := by
  generalize hlines : before ++ [line] = lines at h
  cases h with
  | nil => simp at hlines
  | line text h hline =>
    obtain ⟨rfl, htext⟩ := List.append_inj' hlines rfl
    obtain rfl := List.singleton_inj.mp htext
    exact ⟨_, _, _, h, hline, rfl⟩

/-- A line among others that are all accepted. -/
theorem exists_entry (h : Accepted (before ++ line :: after) last all)
    (hbefore : Accepted before scope entries) : ∃ next entry more,
      scope.readLine (before.length + 1) line = .ok (next, entry) ∧
      all = entries ++ entry :: more := by
  -- by induction from the end, as lines are accepted
  induction after using List.reverseRecOn generalizing last all with
  | nil =>
    obtain ⟨scope', entries', entry, hbefore', hline, rfl⟩ := h.concat_inv
    obtain ⟨rfl, rfl⟩ := hbefore.unique hbefore'
    exact ⟨last, entry, [], hline, rfl⟩
  | append_singleton after text ih =>
    rw [← List.cons_append, ← List.append_assoc] at h
    obtain ⟨_, _, entry', hlines, -, rfl⟩ := h.concat_inv
    obtain ⟨next, entry, more, hline, rfl⟩ := ih hlines
    exact ⟨next, entry, more ++ [entry'], hline, by simp⟩

end Accepted

/-- The operands of an operation line that is accepted are those of its entry. -/
theorem Scope.IsOperation.emit_eq_ok {scope next : Scope} {number : Nat} {text : List Char}
    {entry : Entry} {opcode : Opcode} {operands : List Operand}
    (h : scope.IsOperation text opcode operands)
    (hline : scope.readLine number text = .ok (next, entry)) :
    ∃ mnemonic key, Vocabulary.ofName? mnemonic = some opcode ∧
      scope.draft.emit number mnemonic key operands = .ok entry.slots := by
  obtain ⟨label, mnemonic, key, hparse, -, hopcode, -⟩ := h.parse
  unfold readLine at hline
  rw [hparse] at hline
  simp only [Draft.onLine_eq_ok, accept, bind_eq_ok, mapError_eq_ok, acceptStatement, pure_eq_ok,
    Prod.mk.injEq] at hline
  obtain ⟨declared, hdeclared, slots, hslots, -, rfl⟩ := hline
  exact ⟨mnemonic, key, hopcode, draft_of_declare hdeclared ▸ hslots⟩

theorem layout_getElem? {entries more : List Entry} {entry : Entry} {n : Nat} {slot : Slot}
    (h : entry.slots[n]? = some slot) :
    (layout (entries ++ entry :: more))[(layout entries).length + n]? = some slot := by
  have hsplit : layout (entries ++ entry :: more)
      = layout entries ++ (entry.slots ++ layout more) := by
    simp [layout]
  rw [hsplit, List.getElem?_append_right (Nat.le_add_right _ _), Nat.add_sub_cancel_left,
    List.getElem?_append_left (List.getElem?_eq_some_iff.mp h).1, h]

/-! ### Texts -/

section Texts

variable {text : String} {before after : List (List Char)} {line : List Char} {scope : Scope}
  {entries : List Entry}

theorem Accepted.assemble_eq_error {failure : Failure AssemblyError}
    (h : Accepted before scope entries)
    (hline : scope.readLine (before.length + 1) line = .error failure)
    (hlines : splitLines text.toList = before ++ line :: after) : assemble text = .error failure := by
  unfold assemble
  dsimp only
  rw [hlines, h.refused hline]
  rfl

/-- A text that is assembled has lines that are all accepted. -/
theorem exists_accepted {shader : Shader} (h : assemble text = .ok shader) : ∃ last all draft,
    Accepted (splitLines text.toList) last all ∧ Mirrors draft last all ∧
      draft.finish = .ok shader := by
  obtain ⟨draft, hfold, hfinish⟩ := assemble_eq_ok.mp h
  rcases accepted_or_refused (splitLines text.toList) with ⟨last, all, hall⟩ |
    ⟨before, line, after, scope, entries, failure, hlines, hbefore, hline⟩
  · obtain ⟨draft', hfold', hmirrors⟩ := hall.drafted
    obtain rfl := Except.ok.inj (hfold.symm.trans hfold')
    exact ⟨last, all, draft, hall, hmirrors, hfinish⟩
  · rw [hbefore.assemble_eq_error hline hlines] at h
    cases h

theorem assemble_eq_fault {fault : Fault} : assemble text = .error (.fault fault) ↔
    ∃ operand index, Overflows (splitLines text.toList) operand index ∧
      fault = .addressIndex index := by
  constructor
  · intro h
    rcases accepted_or_refused (splitLines text.toList) with ⟨last, all, hall⟩ |
      ⟨before, line, after, scope, entries, failure, hlines, hbefore, hline⟩
    · -- nothing but an error can come after the last line
      obtain ⟨draft, hfold, -⟩ := hall.drafted
      unfold assemble at h
      dsimp only at h
      rw [hfold] at h
      exact absurd h mapError_error_ne_fault
    · obtain rfl := Except.error.inj ((hbefore.assemble_eq_error hline hlines).symm.trans h)
      obtain ⟨opcode, operands, hoperation, hslots⟩ := Scope.readLine_eq_fault.mp hline
      obtain ⟨earlier, operand, later, address, hsplit, hearlier, haddress, hindex, rfl⟩ :=
        Draft.addressSlots_eq_fault.mp hslots
      have hnames := fun operand address =>
        @Scope.names_iff scope operand address hbefore.tallies.distinct
      simp only [← hnames] at hearlier haddress
      rw [hlines]
      exact ⟨operand, address.index, .line hbefore hoperation hsplit hearlier haddress hindex, rfl⟩
  · rintro ⟨operand, index, hoverflows, rfl⟩
    generalize hlines : splitLines text.toList = lines at hoverflows
    cases hoverflows with
    | @line before after line scope entries opcode operands earlier later operand address hbefore
        hline hoperands hearlier hnames hindex =>
      refine hbefore.assemble_eq_error ?_ hlines
      have hiff := fun operand address =>
        @Scope.names_iff scope operand address hbefore.tallies.distinct
      simp only [hiff] at hearlier hnames
      exact Scope.readLine_eq_fault.mpr ⟨opcode, operands, hline, Draft.addressSlots_eq_fault.mpr
        ⟨earlier, operand, later, address, hoperands, hearlier, hnames, hindex, rfl⟩⟩

/-- No text of this length declares a constant or symbol whose index is too large. -/
theorem Overflows.eq_temporary {operand : Operand} {index : Nat}
    (h : Overflows (splitLines text.toList) operand index) (hlength : text.length ≤ 0x40000000) :
    operand = .temporary index := by
  have htext : (splitLines text.toList).flatten.length ≤ 0x40000000 := by
    refine Nat.le_trans (length_splitLines_le _) ?_
    rwa [String.length_toList]
  generalize splitLines text.toList = lines at h htext
  cases h with
  | @line _ _ _ scope _ _ _ _ _ _ _ hbefore hline hoperands hearlier hnames hindex =>
    have htally := hbefore.tallies.size_le
    rw [List.flatten_append, List.length_append] at htext
    cases hnames with
    | constant hlt => simp only [Address.index] at hindex; omega
    | temporary i => rfl
    | symbol hlt => simp only [Address.index] at hindex; omega
    | @symbolNamed name slot hname =>
      have hlt : slot < scope.symbols.size := by
        obtain ⟨symbol, hsymbol, -⟩ := Option.map_eq_some_iff.mp hname
        exact (Array.getElem?_eq_some_iff.mp hsymbol).1
      simp only [Address.index] at hindex
      omega

end Texts

/-- How assembling a text can end. -/
structure Assembles (text : String) : Prop where
  /-- No argument, operand or word of code is taken by a place that there is not. -/
  places : Strict.assemble text = assemble text
  fault_iff : ∀ fault, assemble text = .error (.fault fault) ↔
    ∃ operand index, Overflows (splitLines text.toList) operand index ∧ fault = .addressIndex index
  /-- In all other cases there is a shader or an error. -/
  returns : (¬ ∃ operand index, Overflows (splitLines text.toList) operand index) →
    (∃ shader, assemble text = .ok shader) ∨ ∃ error, assemble text = .error (.error error)
  /-- Constants and symbols have to be declared, for which a text of this length has no room. -/
  temporary : text.length ≤ 0x40000000 → ∀ operand index,
    Overflows (splitLines text.toList) operand index → operand = .temporary index
  /-- Otherwise the word of each address can be decoded to what its operand names. -/
  decodes : ∀ shader, assemble text = .ok shader →
    ∀ before line after scope entries opcode operands,
      splitLines text.toList = before ++ line :: after → Accepted before scope entries →
      scope.IsOperation line opcode operands →
      ∀ (k : Nat) operand, (opcode.addressOperands operands)[k]? = some operand →
        ∃ word address, shader.code[(layout entries).length + opcode.addressPlace k]? = some word ∧
          scope.Names operand address ∧ address.encode? = some word ∧
          Address.decode? word = some address

/-- **Faults.**  Only an index that is too large makes the assembler fault; every other text is assembled
    or refused with an error. -/
theorem assemble_faults_only_by_overflow (text : String) : Assembles text := by
  refine ⟨Strict.assemble_eq text, fun fault => assemble_eq_fault, fun hfits => ?_,
    fun hlength operand index h => h.eq_temporary hlength, ?_⟩
  · rcases hassemble : assemble text with (fault | error) | shader
    · obtain ⟨operand, index, h, -⟩ := assemble_eq_fault.mp hassemble
      exact absurd ⟨operand, index, h⟩ hfits
    · exact .inr ⟨error, rfl⟩
    · exact .inl ⟨shader, rfl⟩
  · intro shader hassemble before line after scope entries opcode operands hlines hbefore hoperation
      k operand hk
    obtain ⟨last, all, draft, hall, hmirrors, hfinish⟩ := exists_accepted hassemble
    rw [hlines] at hall
    obtain ⟨next, entry, more, hline, rfl⟩ := hall.exists_entry hbefore
    obtain ⟨mnemonic, key, hopcode, hemit⟩ := hoperation.emit_eq_ok hline
    obtain ⟨address, haddress, hindex, hslot⟩ := Draft.emit_addressPlace hopcode hemit hk
    exact ⟨address.word, address, hmirrors.word_of_finish hfinish (layout_getElem? hslot),
      (Scope.names_iff hbefore.tallies.distinct).mpr haddress,
      Address.encode?_eq_some.mpr ⟨hindex, rfl⟩, Address.decode?_word hindex⟩

/-- A text that declares a symbol and names it beside a temporary. -/
def negation : String := ".global uniform float x
negate.u1 %3, @x"

/-- What its first line declares. -/
def negationScope : Scope :=
  { Scope.new with symbols := ⟨#[⟨"x", .global, .float, .uniform, none⟩]⟩ }

theorem assemble_faults_only_by_overflow_negation :
    Accepted [".global uniform float x".toList] negationScope [⟨1, none, [], []⟩] ∧
    negationScope.IsOperation "negate.u1 %3, @x".toList .negate [.temporary 3, .symbolNamed "x"] ∧
    ∃ shader, assemble negation = .ok shader ∧
      (∃ word address, shader.code[1]? = some word ∧ negationScope.Names (.temporary 3) address ∧
        Address.decode? word = some address) ∧
      ∃ word address, shader.code[2]? = some word ∧
        negationScope.Names (.symbolNamed "x") address ∧ Address.decode? word = some address := by
  have hfirst : Accepted [".global uniform float x".toList] negationScope [⟨1, none, [], []⟩] :=
    .line _ .nil (by with_unfolding_all rfl)
  have hsecond : negationScope.IsOperation "negate.u1 %3, @x".toList .negate
      [.temporary 3, .symbolNamed "x"] :=
    ⟨⟨none, "negate", some "u1", by with_unfolding_all rfl, by simp, by decide, _,
      by with_unfolding_all rfl⟩, rfl, by rintro ⟨⟩⟩
  have hlines : splitLines negation.toList
      = [".global uniform float x".toList] ++ "negate.u1 %3, @x".toList :: [] := by
    with_unfolding_all rfl
  obtain ⟨shader, hshader⟩ : ∃ shader, assemble negation = .ok shader :=
    ⟨_, by with_unfolding_all rfl⟩
  have hdecodes := (assemble_faults_only_by_overflow negation).decodes shader hshader _ _ _ _ _ _ _
    hlines hfirst hsecond
  obtain ⟨word, address, hword, hnames, -, hdecode⟩ := hdecodes 0 _ rfl
  obtain ⟨word', address', hword', hnames', -, hdecode'⟩ := hdecodes 1 _ rfl
  exact ⟨hfirst, hsecond, shader, hshader, ⟨word, address, hword, hnames, hdecode⟩,
    ⟨word', address', hword', hnames', hdecode'⟩⟩

/-- A temporary can be named that has no operand word. -/
theorem assemble_faults_hugeTemporary : assemble "negate.u1 %1073741824, %0"
    = .error (.fault (.addressIndex 1073741824)) := by
  with_unfolding_all rfl

end Shading
