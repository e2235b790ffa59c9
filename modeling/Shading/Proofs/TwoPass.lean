import Shading.Proofs.Operations

namespace Shading

/-!
# Assembling in two passes

Labels may be used before they are declared, so one would read a text twice: once to see how many
words each line takes, and once more to fill in the jumps.  A draft keeps the labels in its code
instead, and comes to the same.

* `Scope` — what the lines before a line have declared; no code and no offsets;
* `Scope.readLine` — the first pass over one line; `Accepted` — over all of them;
* `layout`, `Denotes` — the code that the lines take, and what a label stands for in it;
* `Mirrors` — a draft beside the first pass;
* `assemble_in_two_passes` — the assembler against both passes.
-/

/-! ### The first pass -/

/-- What the lines before a line have declared. -/
structure Scope where
  kind : ShaderKind
  name : String
  symbols : SymbolTable
  constants : Array Value
  labels : List String

/-- What a line that is accepted stands for. -/
structure Entry where
  number : Nat
  label : Option String
  /-- The encoding of its operation, in which the target of a jump is a label. -/
  slots : List Slot
  /-- How many temporaries each of its operands asks for. -/
  temporaries : List Nat

namespace Scope

variable (scope : Scope)

/-- Before the first line. -/
def new : Scope where
  kind := .surface
  name := "main"
  symbols := SymbolTable.empty
  constants := #[]
  labels := []

/-- A draft with these declarations and nothing else. -/
def draft : Draft where
  kind := scope.kind
  name := scope.name
  symbols := scope.symbols
  constants := scope.constants
  code := #[]
  labels := NameMap.empty
  temporaries := 0

/-- A label can be declared once. -/
def declare : Option String → Except AssemblyCause Scope
  | none => .ok scope
  | some label =>
    if label ∈ scope.labels then .error (.redefinition label)
    else .ok { scope with labels := label :: scope.labels }

/-- The declarations of a draft, with the labels of the scope. -/
def redeclare (draft : Draft) : Scope :=
  { scope with
    kind := draft.kind
    name := draft.name
    symbols := draft.symbols
    constants := draft.constants }

/-- What a statement stands for on a line with the given label: a directive declares something, and
    an operation takes words. -/
def acceptStatement (number : Nat) (label : Option String) :
    Option Statement → Except (Failure AssemblyCause) (Scope × Entry)
  | none => .ok (scope, ⟨number, label, [], []⟩)
  | some (.directive name arguments) => do
    let draft ← (scope.draft.directive name arguments).mapError .error
    return (scope.redeclare draft, ⟨number, label, [], []⟩)
  | some (.operation mnemonic key operands) => do
    let slots ← scope.draft.emit number mnemonic key operands
    return (scope, ⟨number, label, slots, operands.map Draft.temporariesFor⟩)

/-- What a line stands for that can be read. -/
def accept (number : Nat) (line : Line) : Except (Failure AssemblyCause) (Scope × Entry) := do
  let scope ← (scope.declare line.label).mapError .error
  scope.acceptStatement number line.label line.statement

/-- Reads the line of the given number. -/
def readLine (number : Nat) (text : List Char) : Except (Failure AssemblyError) (Scope × Entry) :=
  match Line.parse? (beforeComment text) with
  | some line => Draft.onLine number (scope.accept number line)
  | none => throw (.error ⟨number, .unreadable (String.ofList (trimChars text))⟩)

end Scope

/-- Every line is accepted, given what the lines before it have declared. -/
inductive Accepted : List (List Char) → Scope → List Entry → Prop
  | nil : Accepted [] Scope.new []
  | line {lines : List (List Char)} {scope next : Scope} {entries : List Entry} {entry : Entry}
      (text : List Char) (h : Accepted lines scope entries)
      (hline : scope.readLine (lines.length + 1) text = .ok (next, entry)) :
      Accepted (lines ++ [text]) next (entries ++ [entry])

/-- The code that the lines take, one after the other. -/
def layout (entries : List Entry) : List Slot := entries.flatMap Entry.slots

/-- The label is declared on one of the lines. -/
def IsDefined (entries : List Entry) (label : String) : Prop :=
  ∃ entry ∈ entries, entry.label = some label

/-- The label stands for so many words, those of the lines before its own. -/
def Denotes (entries : List Entry) (label : String) (offset : Nat) : Prop :=
  ∃ before entry after, entries = before ++ entry :: after ∧ entry.label = some label ∧
    (layout before).length = offset

section Entries

variable {entries : List Entry} {entry : Entry} {label : String} {offset : Nat}

theorem layout_append (entries : List Entry) (entry : Entry) :
    layout (entries ++ [entry]) = layout entries ++ entry.slots := by
  simp [layout]

theorem isDefined_append : IsDefined (entries ++ [entry]) label ↔
    IsDefined entries label ∨ entry.label = some label := by
  simp only [IsDefined, List.mem_append, List.mem_singleton, or_and_right, exists_or,
    exists_eq_left]

theorem Denotes.isDefined (h : Denotes entries label offset) : IsDefined entries label := by
  obtain ⟨before, entry, after, rfl, hlabel, -⟩ := h
  exact ⟨entry, by simp, hlabel⟩

theorem IsDefined.denotes (h : IsDefined entries label) : ∃ offset, Denotes entries label offset := by
  obtain ⟨entry, hentry, hlabel⟩ := h
  obtain ⟨before, after, rfl⟩ := List.append_of_mem hentry
  exact ⟨_, before, entry, after, rfl, hlabel, rfl⟩

/-- No label stands for more words than there are. -/
theorem Denotes.le (h : Denotes entries label offset) : offset ≤ (layout entries).length := by
  obtain ⟨before, entry, after, rfl, -, rfl⟩ := h
  simp [layout]

theorem denotes_append : Denotes (entries ++ [entry]) label offset ↔
    Denotes entries label offset ∨ entry.label = some label ∧ (layout entries).length = offset := by
  constructor
  · rintro ⟨before, other, after, hsplit, hlabel, hoffset⟩
    rcases List.eq_nil_or_concat after with rfl | ⟨after, last, rfl⟩
    · obtain ⟨rfl, hlast⟩ := List.append_inj' hsplit rfl
      obtain rfl := List.singleton_inj.mp hlast
      exact .inr ⟨hlabel, hoffset⟩
    · rw [List.concat_eq_append, ← List.cons_append, ← List.append_assoc] at hsplit
      obtain ⟨hentries, -⟩ := List.append_inj' hsplit rfl
      exact .inl ⟨before, other, after, hentries, hlabel, hoffset⟩
  · rintro (⟨before, other, after, rfl, hlabel, hoffset⟩ | ⟨hlabel, hoffset⟩)
    · exact ⟨before, other, after ++ [entry], by simp, hlabel, hoffset⟩
    · exact ⟨entries, entry, [], rfl, hlabel, hoffset⟩

end Entries

/-! ### A draft beside the first pass -/

namespace Draft

variable {draft : Draft}

/-- The operations of a draft depend on nothing but its symbols and constants. -/
theorem emit_congr {other : Draft} (hsymbols : draft.symbols = other.symbols)
    (hconstants : draft.constants = other.constants) (number : Nat) (mnemonic : String)
    (key : Option String) (operands : List Operand) :
    draft.emit number mnemonic key operands = other.emit number mnemonic key operands := by
  have haddress : ∀ operand, draft.address operand = other.address operand := by
    intro operand
    unfold address
    rw [hsymbols, hconstants]
  have hslots : ∀ operands, draft.addressSlots operands = other.addressSlots operands := by
    intro operands
    unfold addressSlots addressWord
    simp only [haddress]
  unfold emit operandSlots addressWord
  simp only [haddress, hslots]

/-- The draft with the declarations of another one. -/
def declaring (draft declared : Draft) : Draft :=
  { draft with
    kind := declared.kind
    name := declared.name
    symbols := declared.symbols
    constants := declared.constants }

theorem directive_congr {scope : Scope} (hkind : scope.kind = draft.kind)
    (hname : scope.name = draft.name) (hsymbols : scope.symbols = draft.symbols)
    (hconstants : scope.constants = draft.constants) (name : String) (arguments : List Token) :
    draft.directive name arguments = draft.declaring <$> scope.draft.directive name arguments := by
  obtain ⟨kind, title, symbols, constants, labels⟩ := scope
  subst hkind hname hsymbols hconstants
  unfold directive
  dsimp only
  split
  next kind _ =>
    cases Draft.symbol kind arguments with
    | error => rfl
    | ok symbol =>
      dsimp only [Scope.draft, Except.mapError, bind, Except.bind]
      cases draft.symbols.insert? symbol <;> rfl
  next =>
    cases (oneAt arguments 0 .shaderKind : Except DirectiveError ShaderKind) with
    | error => rfl
    | ok kind => cases wordAt arguments 1 .shaderName <;> rfl
  next => cases constantList arguments <;> rfl
  next => rfl

/-- The draft after the label of a line. -/
def marked (draft : Draft) (label : Option String) : Draft :=
  { draft with labels := match label with
    | none => draft.labels
    | some label => draft.labels.insert label draft.code.size }

/-- The draft with what a line adds to it. -/
def extend (draft : Draft) (read : Scope × Entry) : Draft where
  kind := read.1.kind
  name := read.1.name
  symbols := read.1.symbols
  constants := read.1.constants
  code := draft.code ++ read.2.slots
  labels := (draft.marked read.2.label).labels
  temporaries := read.2.temporaries.foldl max draft.temporaries

end Draft

/-- A draft and the first pass have come to the same. -/
structure Mirrors (draft : Draft) (scope : Scope) (entries : List Entry) : Prop where
  kind_eq : scope.kind = draft.kind
  name_eq : scope.name = draft.name
  symbols_eq : scope.symbols = draft.symbols
  constants_eq : scope.constants = draft.constants
  mem_labels : ∀ label, label ∈ scope.labels ↔ IsDefined entries label
  code_eq : draft.code.toList = layout entries
  find?_eq : ∀ label offset, draft.labels.find? label = some offset ↔ Denotes entries label offset
  temporaries_eq : draft.temporaries = (entries.flatMap Entry.temporaries).foldl max 0

namespace Mirrors

variable {draft : Draft} {scope next : Scope} {entries : List Entry} {entry : Entry} {number : Nat}

theorem new : Mirrors Draft.new Scope.new [] := by
  refine ⟨rfl, rfl, rfl, rfl, fun label => ?_, rfl, fun label offset => ?_, rfl⟩
  · exact iff_of_false List.not_mem_nil fun ⟨entry, hentry, _⟩ => List.not_mem_nil hentry
  · refine iff_of_false nofun fun hdenotes => ?_
    obtain ⟨entry, hentry, -⟩ := hdenotes.isDefined
    exact List.not_mem_nil hentry

theorem contains_iff (h : Mirrors draft scope entries) (label : String) :
    draft.labels.contains label = true ↔ label ∈ scope.labels := by
  rw [NameMap.contains, Option.isSome_iff_exists, h.mem_labels]
  constructor
  · rintro ⟨offset, hoffset⟩
    exact ((h.find?_eq label offset).mp hoffset).isDefined
  · intro hdefined
    obtain ⟨offset, hdenotes⟩ := hdefined.denotes
    exact ⟨offset, (h.find?_eq label offset).mpr hdenotes⟩

/-- A statement is accepted, and adds the same, whatever code is there before it. -/
theorem addStatement_eq (h : Mirrors draft scope entries) (label : Option String)
    (labels : List String) (statement : Option Statement) :
    (match statement with
      | some statement => (draft.marked label).addStatement number statement
      | none => return draft.marked label)
      = draft.extend <$> { scope with labels := labels }.acceptStatement number label statement := by
  have hkind := h.kind_eq
  have hname := h.name_eq
  have hsymbols := h.symbols_eq
  have hconstants := h.constants_eq
  cases statement with
  | none =>
    simp [Scope.acceptStatement, Draft.extend, Draft.marked, hkind, hname, hsymbols, hconstants]
  | some statement =>
    cases statement with
    | directive name arguments =>
      have hdirective := @Draft.directive_congr (draft.marked label) { scope with labels := labels }
        hkind hname hsymbols hconstants name arguments
      simp only [Draft.addStatement, Scope.acceptStatement, hdirective]
      cases Scope.draft { scope with labels := labels } |>.directive name arguments with
      | error cause => rfl
      | ok declared =>
        simp [Draft.extend, Draft.declaring, Scope.redeclare, Draft.marked, Except.mapError]
    | operation mnemonic key operands =>
      have hemit := @Draft.emit_congr (draft.marked label)
        (Scope.draft { scope with labels := labels }) hsymbols.symm hconstants.symm number mnemonic key operands
      simp only [Draft.addStatement, Scope.acceptStatement, hemit]
      cases Scope.draft { scope with labels := labels } |>.emit number mnemonic key operands with
      | error cause => rfl
      | ok slots => simp [Draft.extend, Draft.marked, hkind, hname, hsymbols, hconstants]

theorem addParsed_eq (h : Mirrors draft scope entries) (line : Line) :
    draft.addParsed number line = draft.extend <$> scope.accept number line := by
  obtain ⟨label, statement⟩ := line
  unfold Draft.addParsed Scope.accept
  cases label with
  | none => exact h.addStatement_eq none scope.labels statement
  | some label =>
    -- the label comes before the statement: it is refused here and there, or declared
    have hcontains := h.contains_iff label
    simp only [Draft.mark, Scope.declare]
    by_cases hmem : label ∈ scope.labels
    · rw [if_pos (hcontains.mpr hmem), if_pos hmem]
      rfl
    · rw [if_neg (mt hcontains.mp hmem), if_neg hmem]
      exact h.addStatement_eq (some label) (label :: scope.labels) statement

/-- **Lines.**  A line does the same to a draft as it does in the first pass. -/
theorem addLine_eq (h : Mirrors draft scope entries) (text : List Char) :
    draft.addLine number text = draft.extend <$> scope.readLine number text := by
  unfold Draft.addLine Scope.readLine
  cases Line.parse? (beforeComment text) with
  | none => rfl
  | some line =>
    simp only [h.addParsed_eq]
    cases scope.accept number line with
    | error failure => rfl
    | ok read => rfl

end Mirrors

/-! ### Accepted lines -/

/-- Only a jump has a target, which it has on its own line. -/
theorem Draft.slots_of_target {draft : Draft} {number line : Nat} {mnemonic label : String}
    {key : Option String} {operands : List Operand} {slots : List Slot}
    (h : draft.emit number mnemonic key operands = .ok slots)
    (hmem : Slot.target label line ∈ slots) :
    line = number ∧ ∃ condition,
      slots = [.word (Instruction.plain (.jump condition)).encode, .target label line] := by
  obtain ⟨opcode, key, rest, -, hkey, hcount, hrest, rfl⟩ := emit_eq_ok.mp h
  have htakes := readKey_takes hkey
  have hmem : Slot.target label line ∈ rest := by simpa using hmem
  -- addresses are encoded at once, whatever the operation
  have hwords : ∀ operands slots, draft.addressSlots operands = .ok slots →
      Slot.target label line ∉ slots := by
    intro operands slots hslots
    obtain ⟨addresses, -, -, rfl⟩ := addressSlots_eq_ok.mp hslots
    simp
  obtain hplain | ⟨condition, target, rfl, rfl⟩ | ⟨function, result, arguments, rfl, rfl⟩ |
    ⟨result, source, type, rfl, rfl⟩ := Opcode.operands_cases hcount
  · rw [operandSlots_plain hplain] at hrest
    exact absurd hmem (hwords _ _ hrest)
  · obtain ⟨label, rfl, rfl⟩ := operandSlots_jump.mp hrest
    obtain rfl : key = Key.none := htakes
    obtain ⟨rfl, rfl⟩ : _ = label ∧ line = number := by simpa using hmem
    exact ⟨rfl, condition, rfl⟩
  · obtain ⟨_, _, _, arguments', -, -, -, -, -, harguments, rfl⟩ := operandSlots_call.mp hrest
    exact absurd (by simpa using hmem) (hwords _ _ harguments)
  · obtain ⟨addresses, _, _, haddresses, -, -, rfl⟩ := operandSlots_convert.mp hrest
    exact absurd (by simpa using hmem) (hwords _ _ haddresses)

/-- What is known of a line that was accepted. -/
structure Scope.Admits (scope : Scope) (number : Nat) (next : Scope) (entry : Entry) : Prop where
  number_eq : entry.number = number
  fresh : ∀ label, entry.label = some label → label ∉ scope.labels
  mem_labels : ∀ label, label ∈ next.labels ↔ label ∈ scope.labels ∨ entry.label = some label
  jump : ∀ label line, Slot.target label line ∈ entry.slots → line = number ∧ ∃ condition,
    entry.slots = [.word (Instruction.plain (.jump condition)).encode, .target label line]

namespace Scope

variable {scope next : Scope} {number : Nat} {entry : Entry} {text : List Char}

theorem declare_eq_ok {label : Option String} (h : scope.declare label = .ok next) :
    (∀ name, label = some name → name ∉ scope.labels) ∧
      ∀ name, name ∈ next.labels ↔ name ∈ scope.labels ∨ label = some name := by
  cases label with
  | none =>
    obtain rfl := Except.ok.inj h
    simp
  | some label =>
    simp only [declare] at h
    split at h
    next => cases h
    next hfresh =>
      obtain rfl := Except.ok.inj h
      refine ⟨fun name hname => Option.some.inj hname ▸ hfresh, fun name => ?_⟩
      rw [List.mem_cons, or_comm, Option.some.injEq, eq_comm]

theorem readLine_admits (h : scope.readLine number text = .ok (next, entry)) :
    scope.Admits number next entry := by
  unfold readLine at h
  split at h
  next line _ =>
    rw [Draft.onLine_eq_ok] at h
    simp only [accept, bind_eq_ok, mapError_eq_ok] at h
    obtain ⟨declared, hdeclared, h⟩ := h
    obtain ⟨hfresh, hlabels⟩ := declare_eq_ok hdeclared
    cases hstatement : line.statement with
    | none =>
      rw [hstatement] at h
      obtain ⟨rfl, rfl⟩ := Prod.mk.inj (Except.ok.inj h)
      exact ⟨rfl, hfresh, hlabels, fun _ _ hmem => absurd hmem List.not_mem_nil⟩
    | some statement =>
      rw [hstatement] at h
      cases statement with
      | directive name arguments =>
        simp only [acceptStatement, bind_eq_ok, mapError_eq_ok, pure_eq_ok, Prod.mk.injEq] at h
        obtain ⟨draft, -, rfl, rfl⟩ := h
        exact ⟨rfl, hfresh, hlabels, fun _ _ hmem => absurd hmem List.not_mem_nil⟩
      | operation mnemonic key operands =>
        simp only [acceptStatement, bind_eq_ok, pure_eq_ok, Prod.mk.injEq] at h
        obtain ⟨slots, hslots, rfl, rfl⟩ := h
        exact ⟨rfl, hfresh, hlabels, fun _ _ hmem => Draft.slots_of_target hslots hmem⟩
  next => simp at h

/-- The error of a line has its number. -/
theorem line_of_readLine {error : AssemblyError}
    (h : scope.readLine number text = .error (.error error)) : error.line = number := by
  unfold readLine at h
  split at h
  next line _ =>
    rcases haccept : scope.accept number line with (fault | cause) | read
    · rw [haccept] at h
      cases h
    · rw [haccept] at h
      cases h
      rfl
    · rw [haccept] at h
      cases h
  next =>
    cases h
    rfl

end Scope

theorem Mirrors.extend {draft : Draft} {scope next : Scope} {entries : List Entry} {entry : Entry}
    {number : Nat} (h : Mirrors draft scope entries) (hadmits : scope.Admits number next entry) :
    Mirrors (draft.extend (next, entry)) next (entries ++ [entry]) := by
  have hsize : draft.code.size = (layout entries).length := by
    rw [← h.code_eq, Array.length_toList]
  refine ⟨rfl, rfl, rfl, rfl, fun label => ?_, ?_, fun label offset => ?_, ?_⟩
  · rw [hadmits.mem_labels, h.mem_labels, isDefined_append]
  · rw [layout_append, ← h.code_eq]
    exact Array.toList_appendList
  · rw [denotes_append]
    dsimp only [Draft.extend, Draft.marked]
    cases hlabel : entry.label with
    | none => simp [h.find?_eq]
    | some name =>
      dsimp only
      rw [NameMap.find?_insert, hsize]
      by_cases hname : name = label
      · -- a label that is declared here was not declared before
        have hnot : ¬ Denotes entries label offset := by
          intro hdenotes
          refine hadmits.fresh label (hname ▸ hlabel) ?_
          exact (h.mem_labels label).mpr hdenotes.isDefined
        simp [hname, hnot]
      · simp [hname, h.find?_eq]
  · rw [List.flatMap_append, List.foldl_append, ← h.temporaries_eq, List.flatMap_singleton]
    rfl

namespace Accepted

variable {lines : List (List Char)} {scope : Scope} {entries : List Entry}

theorem length_eq (h : Accepted lines scope entries) : entries.length = lines.length := by
  induction h with
  | nil => rfl
  | line text h hline ih => simp [ih]

theorem number_eq (h : Accepted lines scope entries) {k : Nat} {entry : Entry}
    (hentry : entries[k]? = some entry) : entry.number = k + 1 := by
  induction h with
  | nil => simp at hentry
  | @line lines _ _ entries _ text h hline ih =>
    rcases Nat.lt_trichotomy k entries.length with hlt | rfl | hgt
    · rw [List.getElem?_append_left hlt] at hentry
      exact ih hentry
    · rw [List.getElem?_concat_length] at hentry
      obtain rfl := Option.some.inj hentry
      rw [(Scope.readLine_admits hline).number_eq, h.length_eq]
    · rw [List.getElem?_eq_none (by simp; omega)] at hentry
      cases hentry

theorem jump (h : Accepted lines scope entries) {entry : Entry} (hentry : entry ∈ entries)
    {label : String} {line : Nat} (hmem : Slot.target label line ∈ entry.slots) :
    line = entry.number ∧ ∃ condition,
      entry.slots = [.word (Instruction.plain (.jump condition)).encode, .target label line] := by
  induction h with
  | nil => cases hentry
  | line text h hline ih =>
    rcases List.mem_append.mp hentry with hentry | hentry
    · exact ih hentry
    · obtain rfl := List.mem_singleton.mp hentry
      have hadmits := Scope.readLine_admits hline
      rw [hadmits.number_eq]
      exact hadmits.jump label line hmem

/-- A draft goes along with the first pass over lines that are accepted. -/
theorem drafted (h : Accepted lines scope entries) :
    ∃ draft, (lines.zipIdx 1).foldlM (fun (draft : Draft) line => draft.addLine line.2 line.1)
      Draft.new = .ok draft ∧ Mirrors draft scope entries := by
  induction h with
  | nil => exact ⟨Draft.new, rfl, .new⟩
  | @line lines _ next _ entry text h hline ih =>
    obtain ⟨draft, hfold, hmirrors⟩ := ih
    refine ⟨draft.extend (next, entry), ?_, hmirrors.extend (Scope.readLine_admits hline)⟩
    have hlast : draft.addLine (lines.length + 1) text = .ok (draft.extend (next, entry)) := by
      rw [hmirrors.addLine_eq, hline]
      rfl
    rw [List.zipIdx_append, foldlM_append_of_ok hfold, Nat.add_comm 1]
    simp [hlast]

/-- A line that is refused ends it. -/
theorem refused (h : Accepted lines scope entries) {line : List Char}
    {failure : Failure AssemblyError}
    (hline : scope.readLine (lines.length + 1) line = .error failure) (after : List (List Char)) :
    ((lines ++ line :: after).zipIdx 1).foldlM
      (fun (draft : Draft) line => draft.addLine line.2 line.1) Draft.new = .error failure := by
  obtain ⟨draft, hfold, hmirrors⟩ := h.drafted
  have hnext : draft.addLine (lines.length + 1) line = .error failure := by
    rw [hmirrors.addLine_eq, hline]
    rfl
  rw [List.zipIdx_append, foldlM_append_of_ok hfold, Nat.add_comm 1, List.zipIdx_cons,
    List.foldlM_cons, hnext]
  rfl

end Accepted

/-- Either all lines are accepted or there is a first one that is not. -/
theorem accepted_or_refused (lines : List (List Char)) :
    (∃ scope entries, Accepted lines scope entries) ∨
      ∃ before line after scope entries failure, lines = before ++ line :: after ∧
        Accepted before scope entries ∧
        scope.readLine (before.length + 1) line = .error failure := by
  -- by induction from the end, since a line depends on those before it
  induction lines using List.reverseRecOn with
  | nil => exact .inl ⟨_, _, .nil⟩
  | append_singleton lines text ih =>
    rcases ih with ⟨scope, entries, h⟩ | ⟨before, line, after, scope, entries, failure, rfl, h, hline⟩
    · rcases hread : scope.readLine (lines.length + 1) text with failure | ⟨next, entry⟩
      · exact .inr ⟨lines, text, [], scope, entries, failure, rfl, h, hread⟩
      · exact .inl ⟨next, entries ++ [entry], .line text h hread⟩
    · exact .inr ⟨before, line, after ++ [text], scope, entries, failure, by simp, h, hline⟩

/-! ### The second pass -/

namespace Mirrors

variable {draft : Draft} {scope : Scope} {entries : List Entry}

theorem unique (h : Mirrors draft scope entries) {label : String} {m n : Nat}
    (hm : Denotes entries label m) (hn : Denotes entries label n) : m = n := by
  have hm := (h.find?_eq label m).mpr hm
  have hn := (h.find?_eq label n).mpr hn
  exact Option.some.inj (hm.symm.trans hn)

/-- Words stay as they are, and a target is resolved if its label is defined. -/
theorem resolve_eq_ok (h : Mirrors draft scope entries) {slot : Slot} {word : Word} :
    draft.resolve slot = .ok word ↔ slot = .word word ∨ ∃ label line offset,
      slot = .target label line ∧ Denotes entries label offset ∧ word = UInt32.ofNat offset := by
  cases slot with
  | word w => simp [Draft.resolve]
  | target label line =>
    simp only [Draft.resolve]
    cases hfound : draft.labels.find? label with
    | none =>
      refine iff_of_false (by simp) ?_
      rintro (⟨⟨⟩⟩ | ⟨_, _, offset, ⟨⟩, hdenotes, -⟩)
      rw [(h.find?_eq label offset).mpr hdenotes] at hfound
      cases hfound
    | some offset =>
      have hdenotes := (h.find?_eq label offset).mp hfound
      constructor
      · rintro ⟨⟩
        exact .inr ⟨label, line, offset, rfl, hdenotes, rfl⟩
      · rintro (⟨⟨⟩⟩ | ⟨_, _, other, ⟨⟩, hother, rfl⟩)
        rw [h.unique hdenotes hother]

/-- What is wrong with a slot is that its label is not defined. -/
theorem resolve_eq_error (h : Mirrors draft scope entries) {slot : Slot} {error : AssemblyError}
    (herror : draft.resolve slot = .error error) : ∃ label line, slot = .target label line ∧
      ¬ IsDefined entries label ∧ error = ⟨line, .unknownLabel label⟩ := by
  cases slot with
  | word w => cases herror
  | target label line =>
    refine ⟨label, line, rfl, fun hdefined => ?_, ?_⟩
    · obtain ⟨offset, hdenotes⟩ := hdefined.denotes
      have hok := h.resolve_eq_ok.mpr (.inr ⟨label, line, offset, rfl, hdenotes, rfl⟩)
      rw [hok] at herror
      cases herror
    · simp only [Draft.resolve] at herror
      split at herror
      next => cases herror
      next => exact (Except.error.inj herror).symm

end Mirrors

/-- The shader has the code that the lines take, with a number for each label. -/
structure Shader.Fills (shader : Shader) (scope : Scope) (entries : List Entry) : Prop where
  kind_eq : shader.kind = scope.kind
  name_eq : shader.name = scope.name
  symbols_eq : shader.symbols = scope.symbols
  constants_eq : shader.constants = scope.constants
  temporaries_eq : shader.temporaries = (entries.flatMap Entry.temporaries).foldl max 0
  size_eq : shader.code.size = (layout entries).length
  /-- No other word is altered. -/
  word : ∀ (k : Nat) word, (layout entries)[k]? = some (.word word) → shader.code[k]? = some word
  /-- Forward or backward, a jump goes to where its label is. -/
  target : ∀ (k : Nat) label line, (layout entries)[k]? = some (.target label line) →
    ∃ word, shader.code[k]? = some word ∧ Denotes entries label word.toNat

theorem Mirrors.word_of_finish {draft : Draft} {scope : Scope} {entries : List Entry} {shader : Shader}
    (h : Mirrors draft scope entries) (hfinish : draft.finish = .ok shader) {k : Nat} {word : Word}
    (hword : (layout entries)[k]? = some (.word word)) : shader.code[k]? = some word := by
  obtain ⟨code, hcode, rfl⟩ := Draft.finish_eq_ok.mp hfinish
  rw [h.code_eq] at hcode
  obtain ⟨word', hword', hresolve⟩ := (mapM_eq_ok.mp hcode).2 k _ hword
  obtain ⟨⟨⟩⟩ | ⟨_, _, _, ⟨⟩, -⟩ := h.resolve_eq_ok.mp hresolve
  exact (List.getElem?_toArray ..).trans hword'

theorem Mirrors.fills {draft : Draft} {scope : Scope} {entries : List Entry} {shader : Shader}
    (h : Mirrors draft scope entries) (hsize : (layout entries).length < 4294967296)
    (hfinish : draft.finish = .ok shader) : shader.Fills scope entries := by
  have hwords := fun k word => @word_of_finish draft scope entries shader h hfinish k word
  obtain ⟨code, hcode, rfl⟩ := Draft.finish_eq_ok.mp hfinish
  rw [h.code_eq] at hcode
  obtain ⟨hlength, hall⟩ := mapM_eq_ok.mp hcode
  refine ⟨h.kind_eq.symm, h.name_eq.symm, h.symbols_eq.symm, h.constants_eq.symm, h.temporaries_eq,
    hlength.symm, hwords, fun k label line htarget => ?_⟩
  obtain ⟨word, hword, hresolve⟩ := hall k _ htarget
  obtain ⟨⟨⟩⟩ | ⟨_, _, offset, ⟨⟩, hdenotes, rfl⟩ := h.resolve_eq_ok.mp hresolve
  refine ⟨_, (List.getElem?_toArray ..).trans hword, ?_⟩
  -- no offset is as large as the number of words that there can be
  have hlt : offset < 4294967296 := Nat.lt_of_le_of_lt hdenotes.le hsize
  rw [UInt32.toNat_ofNat_of_lt' hlt]
  exact hdenotes

/-- What two passes over a text make of it if every line is accepted in the first. -/
structure TwoPass (text : String) (scope : Scope) (entries : List Entry) : Prop where
  number_eq : ∀ (k : Nat) entry, entries[k]? = some entry → entry.number = k + 1
  /-- Only a jump has a target, on its own line. -/
  jump : ∀ entry ∈ entries, ∀ label line, Slot.target label line ∈ entry.slots →
    line = entry.number ∧ ∃ condition,
      entry.slots = [.word (Instruction.plain (.jump condition)).encode, .target label line]
  unique : ∀ label m n, Denotes entries label m → Denotes entries label n → m = n
  assembles_iff : (∃ shader, assemble text = .ok shader) ↔
    ∀ label line, Slot.target label line ∈ layout entries → IsDefined entries label
  fills : ∀ shader, assemble text = .ok shader → shader.Fills scope entries
  /-- The first label that is not defined is the one complained about. -/
  unknown : ∀ failure, assemble text = .error failure → ∃ (k : Nat) (label : String) (line : Nat),
    (layout entries)[k]? = some (.target label line) ∧ ¬ IsDefined entries label ∧
    (∀ j label line, j < k → (layout entries)[j]? = some (.target label line) →
      IsDefined entries label) ∧
    failure = .error ⟨line, .unknownLabel label⟩

theorem Accepted.twoPass {text : String} {scope : Scope} {entries : List Entry}
    (h : Accepted (splitLines text.toList) scope entries)
    (hsize : (layout entries).length < 4294967296) : TwoPass text scope entries := by
  obtain ⟨draft, hfold, hmirrors⟩ := h.drafted
  have hassemble : assemble text = draft.finish.mapError .error := by
    unfold assemble
    dsimp only
    rw [hfold]
    rfl
  have hfinish : draft.finish = (do
      let code ← (layout entries).mapM draft.resolve
      return ⟨draft.kind, draft.name, code.toArray, draft.constants, draft.symbols,
        draft.temporaries⟩) := by
    rw [← hmirrors.code_eq]
    rfl
  have hdefined : ∀ {label line word}, draft.resolve (.target label line) = .ok word →
      IsDefined entries label := by
    intro label line word hresolve
    obtain ⟨⟨⟩⟩ | ⟨_, _, _, ⟨⟩, hdenotes, -⟩ := hmirrors.resolve_eq_ok.mp hresolve
    exact hdenotes.isDefined
  refine ⟨fun k entry => h.number_eq, fun entry hentry label line => h.jump hentry,
    fun label m n => hmirrors.unique, ?_, fun shader hshader => ?_, fun failure hfailure => ?_⟩
  · rw [hassemble, hfinish]
    constructor
    · rintro ⟨shader, hshader⟩ label line hmem
      simp only [mapError_eq_ok, bind_eq_ok] at hshader
      obtain ⟨code, hcode, -⟩ := hshader
      obtain ⟨word, hword⟩ := exists_of_mapM hcode hmem
      exact hdefined hword
    · intro hall
      rcases mapM_cases draft.resolve (layout entries) with ⟨code, hcode⟩ | ⟨k, slot, e, hslot, he, -⟩
      · rw [hcode]
        exact ⟨_, rfl⟩
      · obtain ⟨label, line, rfl, hnot, -⟩ := hmirrors.resolve_eq_error he
        exact absurd (hall label line (List.mem_of_getElem? hslot)) hnot
  · rw [hassemble, mapError_eq_ok] at hshader
    exact hmirrors.fills hsize hshader
  · rw [hassemble, hfinish] at hfailure
    rcases mapM_cases draft.resolve (layout entries) with ⟨code, hcode⟩ |
      ⟨k, slot, e, hslot, he, hbefore, herror⟩
    · rw [hcode] at hfailure
      cases hfailure
    · obtain ⟨label, line, rfl, hnot, rfl⟩ := hmirrors.resolve_eq_error he
      rw [herror] at hfailure
      refine ⟨k, label, line, hslot, hnot, fun j label' line' hj hslot' => ?_, ?_⟩
      · obtain ⟨word, hword⟩ := hbefore j _ hj hslot'
        exact hdefined hword
      · exact (Except.error.inj hfailure).symm

/-- What it means that a text is assembled as by two passes over its lines. -/
structure InTwoPasses (text : String) : Prop where
  accepted : ∀ scope entries, Accepted (splitLines text.toList) scope entries →
    (layout entries).length < 4294967296 → TwoPass text scope entries
  /-- The first line that is refused gives the error, which has its number.  Later lines do not
      matter. -/
  refused : ∀ before line after scope entries failure,
    splitLines text.toList = before ++ line :: after → Accepted before scope entries →
    scope.readLine (before.length + 1) line = .error failure →
    assemble text = .error failure ∧
      (∀ error, failure = .error error → error.line = before.length + 1) ∧
      ∀ other after', splitLines other.toList = before ++ line :: after' →
        assemble other = assemble text
  either : (∃ scope entries, Accepted (splitLines text.toList) scope entries) ∨
    ∃ before line after scope entries failure, splitLines text.toList = before ++ line :: after ∧
      Accepted before scope entries ∧ scope.readLine (before.length + 1) line = .error failure

/-- **Labels.**  Assembling is the same as two passes over the text: one that lays out the code and
    finds what the labels stand for, and one that puts that into the jumps. -/
theorem assemble_in_two_passes (text : String) : InTwoPasses text := by
  refine ⟨fun scope entries h hsize => h.twoPass hsize, ?_, accepted_or_refused _⟩
  intro before line after scope entries failure hlines haccepted hline
  -- the lines after the refused one are not looked at
  have hassemble : ∀ other after', splitLines other.toList = before ++ line :: after' →
      assemble other = .error failure := by
    intro other after' hother
    unfold assemble
    dsimp only
    rw [hother, haccepted.refused hline]
    rfl
  refine ⟨hassemble text after hlines, ?_, fun other after' hother => ?_⟩
  · rintro error rfl
    exact Scope.line_of_readLine hline
  · rw [hassemble other after' hother, hassemble text after hlines]

/-- A loop with a jump forward and a jump backward. -/
def loopText : String := "top: jump_empty end
jump top
end:"

/-- What its lines stand for. -/
def loopEntries : List Entry :=
  [⟨1, some "top", [.word 6, .target "end" 1], [0]⟩, ⟨2, none, [.word 8, .target "top" 2], [0]⟩,
    ⟨3, some "end", [], []⟩]

theorem accepted_loopText : Accepted (splitLines loopText.toList)
    { Scope.new with labels := ["end", "top"] } loopEntries := by
  have hlines : splitLines loopText.toList
      = ["top: jump_empty end".toList, "jump top".toList, "end:".toList] := by
    with_unfolding_all rfl
  have hfirst : Accepted ["top: jump_empty end".toList] { Scope.new with labels := ["top"] }
      (loopEntries.take 1) := .line _ .nil (by with_unfolding_all rfl)
  have hsecond : Accepted ["top: jump_empty end".toList, "jump top".toList]
      { Scope.new with labels := ["top"] } (loopEntries.take 2) :=
    .line _ hfirst (by with_unfolding_all rfl)
  rw [hlines]
  exact .line _ hsecond (by with_unfolding_all rfl)

/-- The loop is assembled.  A line that is no operation is refused, although a label before it is not
    defined. -/
theorem assemble_in_two_passes_loopText :
    (∃ shader, assemble loopText = .ok shader ∧ (layout loopEntries).length < 4294967296 ∧
      shader.Fills { Scope.new with labels := ["end", "top"] } loopEntries ∧
      Denotes loopEntries "end" 4 ∧ Denotes loopEntries "top" 0) ∧
    assemble "jump nowhere
spin" = .error (.error ⟨2, .notAnOperation "spin"⟩) := by
  constructor
  · have hpasses := (assemble_in_two_passes loopText).accepted _ _ accepted_loopText (by decide)
    have hend : Denotes loopEntries "end" 4 := ⟨loopEntries.take 2, _, [], rfl, rfl, rfl⟩
    have htop : Denotes loopEntries "top" 0 := ⟨[], _, loopEntries.drop 1, rfl, rfl, rfl⟩
    obtain ⟨shader, hshader⟩ := hpasses.assembles_iff.mpr fun label line hmem => by
      obtain ⟨rfl, -⟩ | ⟨rfl, -⟩ : label = "end" ∧ line = 1 ∨ label = "top" ∧ line = 2 := by
        simpa [layout, loopEntries] using hmem
      · exact hend.isDefined
      · exact htop.isDefined
    exact ⟨shader, hshader, by decide, hpasses.fills shader hshader, hend, htop⟩
  · have hfirst : Accepted ["jump nowhere".toList] Scope.new
        [⟨1, none, [.word 8, .target "nowhere" 1], [0]⟩] :=
      .line _ .nil (by with_unfolding_all rfl)
    exact ((assemble_in_two_passes _).refused ["jump nowhere".toList] "spin".toList [] _ _ _
      (by with_unfolding_all rfl) hfirst (by with_unfolding_all rfl)).1

end Shading
