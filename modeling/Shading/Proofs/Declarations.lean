import Shading.Assembly.Draft
import Shading.Proofs.Layout

namespace Shading

/-!
# What declarations leave in a shader

A shader that was assembled from a text declares only what a text can say: its names are names of the
grammar, its constants and defaults are literals, no two symbols share a name.

* `IsQuotable` — what can stand in a line between quotes;
* `Value.IsLiteral` — the values that literals give;
* `Line.parse?_tokens` — the arguments that are read from a line;
* `Draft.Declared` — the invariant of drafts, and `assemble_declared` for the shader at the end.
-/

/-! ### Characters of a line -/

/-- A text that a line can hold between quotes. -/
def IsQuotable (text : String) : Prop :=
  '"' ∉ text.toList ∧ '\n' ∉ text.toList

/-- No line of a text holds a line feed. -/
theorem not_mem_splitLines {text line : List Char} (h : line ∈ splitLines text) : '\n' ∉ line := by
  fun_induction splitLines text generalizing line with
  | case1 => cases h
  | case2 rest ih =>
    obtain rfl | h := List.mem_cons.mp h
    · exact List.not_mem_nil
    · exact ih h
  | case3 rest ih =>
    obtain rfl | h := List.mem_cons.mp h
    · exact List.not_mem_nil
    · exact ih h
  | case4 c rest hfeed _ hnil ih =>
    obtain rfl := List.mem_singleton.mp h
    exact fun hc => hfeed (List.mem_singleton.mp hc).symm
  | case5 c rest hfeed _ first lines hlines ih =>
    rw [hlines] at ih
    obtain rfl | h := List.mem_cons.mp h
    · rw [List.mem_cons, not_or]
      exact ⟨fun hc => hfeed hc.symm, ih List.mem_cons_self⟩
    · exact ih (List.mem_cons_of_mem _ h)

theorem beforeComment_subset {text : List Char} : beforeComment text ⊆ text := by
  unfold beforeComment
  generalize false = quoted
  induction text generalizing quoted with
  | nil => exact List.Subset.refl _
  | cons c text ih =>
    rw [beforeCommentFrom]
    split
    · exact List.nil_subset _
    · exact List.cons_subset_cons c (ih _)

/-! ### Arguments of directives -/

/-- A token that a line can hold. -/
def Token.IsReadable : Token → Prop
  | .word text => IsName text
  | .number _ => True
  | .quoted text => IsQuotable text

theorem Token.IsWritten.isReadable {text : List Char} {token : Token} (h : token.IsWritten text)
    (hline : '\n' ∉ text) : token.IsReadable := by
  cases h with
  | word h => exact h
  | number => trivial
  | quoted h =>
    refine ⟨h, fun hmem => hline ?_⟩
    simp [hmem]

/-- The items of a line are written in it. -/
theorem MoreOf.exists_written {α : Type} {written : List Char → α → Prop} {text : List Char}
    {xs : List α} (h : MoreOf written text xs) :
    ∀ x ∈ xs, ∃ start, written start x ∧ start ⊆ text := by
  induction h with
  | nil => simp
  | @cons separator start more x xs hseparator first rest ih =>
    rw [List.forall_mem_cons]
    refine ⟨⟨start, first, fun c hc => by simp [hc]⟩, fun y hy => ?_⟩
    obtain ⟨start', hstart', hsubset⟩ := ih y hy
    exact ⟨start', hstart', fun c hc => by simp [hsubset hc]⟩

/-- The arguments that a directive on a line has. -/
theorem Line.parse?_tokens {text : List Char} {label : Option String} {name : String}
    {arguments : List Token} (hline : '\n' ∉ text)
    (h : Line.parse? text = some ⟨label, some (.directive name arguments)⟩) :
    ∀ token ∈ arguments, token.IsReadable := by
  cases isLayout_of_parse? h with
  | mk _ _ hstatement =>
    cases hstatement with
    | some hwritten =>
      cases hwritten with
      | directive _ harguments =>
        intro token htoken
        obtain ⟨start, hstart, hsubset⟩ := harguments.moreOf.exists_written token htoken
        refine hstart.isReadable fun hmem => hline ?_
        simp [hsubset hmem]

/-! ### Literals -/

/-- The uniform value whose only element has the given floats. -/
def Value.ofNumbers (type : ElementType) (floats : List Float32) : Value :=
  { Value.zeros type .uniform 1 with floats := floats.toArray }

/-- A value that a text can spell out: a string, or the numbers of one element. -/
inductive Value.IsLiteral : Value → Prop
  | quoted {text : String} (htext : IsQuotable text) : IsLiteral (Value.uniformString text)
  | numbers {type : ElementType} {floats : List Float32} (htype : type ≠ .string)
      (hcount : floats.length = type.components) : IsLiteral (Value.ofNumbers type floats)

namespace Value.IsLiteral

variable {value : Value} (h : value.IsLiteral)

include h

theorem storage_eq : value.storage = .uniform := by
  cases h <;> rfl

theorem size_eq : value.size = 1 := by
  cases h <;> rfl

theorem size_floats : value.floats.size = value.components := by
  cases h with
  | quoted => rfl
  | numbers _ hcount => exact hcount

end Value.IsLiteral

namespace Draft

variable {type : ElementType} {tokens : List Token} {value : Value}

theorem isLiteral_of_literal {floats : List Float32} (h : literal type floats = .ok value) :
    value.IsLiteral ∧ value.type = type := by
  unfold literal at h
  dsimp only at h
  split at h
  next x htriple =>
    obtain rfl := Except.ok.inj h
    refine ⟨.numbers ?_ ?_, rfl⟩
    · rintro rfl
      cases htriple
    · exact (beq_iff_eq.mp htriple).symm
  next =>
    split at h
    next hcount =>
      obtain rfl := Except.ok.inj h
      exact ⟨.numbers hcount.1 hcount.2, rfl⟩
    next => cases h

theorem isLiteral_of_default? (htokens : ∀ token ∈ tokens, token.IsReadable)
    (h : default? type tokens = .ok (some value)) : value.IsLiteral ∧ value.type = type := by
  unfold default? at h
  split at h
  next => cases h
  next =>
    split at h
    next text =>
      obtain rfl := Option.some.inj (Except.ok.inj h)
      exact ⟨.quoted (htokens _ List.mem_cons_self), rfl⟩
    next =>
      simp only [bind_eq_ok, pure_eq_ok, Option.some.injEq] at h
      obtain ⟨floats, -, _, hliteral, rfl⟩ := h
      exact isLiteral_of_literal hliteral

theorem isLiteral_of_constantList {values : List Value} (htokens : ∀ token ∈ tokens, token.IsReadable)
    (h : constantList tokens = .ok values) : ∀ value ∈ values, value.IsLiteral := by
  intro value hvalue
  obtain ⟨n, hn⟩ := List.mem_iff_getElem?.mp hvalue
  simp only [constantList, bind_eq_ok] at h
  obtain ⟨type, -, h⟩ := h
  split at h
  next =>
    obtain ⟨hlength, hall⟩ := mapM_eq_ok.mp h
    have hlt : n < (tokens.drop 1).length := hlength ▸ (List.getElem?_eq_some_iff.mp hn).1
    obtain ⟨_, hn', htoken⟩ := hall n _ (List.getElem?_eq_getElem hlt)
    obtain rfl := Option.some.inj (hn.symm.trans hn')
    have hreadable := htokens _ (List.mem_of_mem_drop (List.getElem_mem hlt))
    split at htoken
    next text hquoted =>
      obtain rfl := Except.ok.inj htoken
      rw [hquoted] at hreadable
      exact .quoted hreadable
    next => cases htoken
  next =>
    simp only [bind_eq_ok] at h
    obtain ⟨floats, -, h⟩ := h
    split at h
    next => simp at h
    next =>
      obtain ⟨hlength, hall⟩ := mapM_eq_ok.mp h
      have hlt : n < (inGroups type.components floats).length :=
        hlength ▸ (List.getElem?_eq_some_iff.mp hn).1
      obtain ⟨_, hn', hliteral⟩ := hall n _ (List.getElem?_eq_getElem hlt)
      obtain rfl := Option.some.inj (hn.symm.trans hn')
      exact (isLiteral_of_literal hliteral).1

end Draft

/-! ### Drafts -/

/-- A symbol that a text can declare. -/
structure Symbol.IsDeclared (symbol : Symbol) : Prop where
  isName : IsName symbol.name
  default_isLiteral : ∀ value, symbol.default = some value →
    value.IsLiteral ∧ value.type = symbol.type

/-- What can be declared of a shader: its name, its constants and its symbols. -/
structure Declared (name : String) (constants : Array Value) (table : SymbolTable) : Prop where
  isName : IsName name
  isLiteral : ∀ value ∈ constants, value.IsLiteral
  isDeclared : ∀ symbol ∈ table.symbols, symbol.IsDeclared
  distinct : (table.symbols.toList.map Symbol.name).Nodup

/-- A symbol can be declared exactly if its name is not taken. -/
theorem SymbolTable.insert?_eq_some {table next : SymbolTable} {symbol : Symbol} :
    table.insert? symbol = some next ↔
      symbol.name ∉ table.symbols.toList.map Symbol.name ∧
        next = ⟨table.symbols.push symbol⟩ := by
  have hnone : table.slot? symbol.name = none ↔
      symbol.name ∉ table.symbols.toList.map Symbol.name := by
    simp [slot?, Array.findIdx?_eq_none_iff]
  rw [← hnone]
  unfold insert?
  cases table.slot? symbol.name <;> simp [eq_comm]

/-- A symbol is found under its name. -/
theorem SymbolTable.slot?_eq_some {table : SymbolTable}
    (hdistinct : (table.symbols.toList.map Symbol.name).Nodup) {name : String} {slot : Nat} :
    table.slot? name = some slot ↔ table.name? slot = some name := by
  rw [slot?, Array.findIdx?_eq_some_iff_getElem, name?, Option.map_eq_some_iff]
  constructor
  · rintro ⟨hlt, hname, -⟩
    exact ⟨_, Array.getElem?_eq_getElem hlt, of_decide_eq_true hname⟩
  · rintro ⟨symbol, hsymbol, rfl⟩
    obtain ⟨hlt, rfl⟩ := Array.getElem?_eq_some_iff.mp hsymbol
    refine ⟨hlt, by simp, fun j hj => ?_⟩
    -- an earlier symbol of that name would be the same one
    have hne := List.nodup_iff_getElem?_ne_getElem?.mp hdistinct j slot hj (by simpa using hlt)
    intro hsame
    refine hne ?_
    simpa [hlt, Nat.lt_trans hj hlt] using hsame

theorem nodup_push {symbols : Array Symbol} {symbol : Symbol}
    (h : (symbols.toList.map Symbol.name).Nodup) (hname : symbol.name ∉ symbols.toList.map Symbol.name) :
    ((symbols.push symbol).toList.map Symbol.name).Nodup := by
  rw [Array.toList_push, List.map_append, List.nodup_append]
  refine ⟨h, by simp, ?_⟩
  rintro taken htaken _ hlast rfl
  obtain rfl := List.mem_singleton.mp hlast
  exact hname htaken

namespace Draft

variable {draft next : Draft} {arguments : List Token}

theorem wordAt_isName {n : Nat} {part : DirectivePart} {text : String}
    (harguments : ∀ token ∈ arguments, token.IsReadable)
    (h : wordAt arguments n part = .ok text) : IsName text := by
  unfold wordAt at h
  split at h
  next token htoken =>
    obtain rfl := Except.ok.inj h
    exact harguments _ (List.mem_of_getElem? htoken)
  next => cases h

theorem symbol_isDeclared {kind : SymbolKind} {symbol : Symbol}
    (harguments : ∀ token ∈ arguments, token.IsReadable)
    (h : Draft.symbol kind arguments = .ok symbol) : symbol.IsDeclared := by
  simp only [Draft.symbol, bind_eq_ok, pure_eq_ok] at h
  obtain ⟨storage, -, type, -, name, hname, default, hdefault, rfl⟩ := h
  refine ⟨wordAt_isName harguments hname, ?_⟩
  rintro value rfl
  exact isLiteral_of_default? (fun token htoken =>
    harguments token (List.mem_of_mem_drop htoken)) hdefault

/-- What a directive can do: declare a symbol, name the shader, or add constants. -/
theorem directive_cases {name : String} (h : draft.directive name arguments = .ok next) :
    (∃ kind symbol, Draft.symbol kind arguments = .ok symbol ∧
      symbol.name ∉ draft.symbols.symbols.toList.map Symbol.name ∧
      next = { draft with symbols := ⟨draft.symbols.symbols.push symbol⟩ }) ∨
    (∃ kind title, wordAt arguments 1 .shaderName = .ok title ∧
      next = { draft with kind := kind, name := title }) ∨
    ∃ values, constantList arguments = .ok values ∧
      next = { draft with constants := draft.constants ++ values } := by
  unfold directive at h
  dsimp only at h
  split at h
  next kind _ =>
    simp only [bind_eq_ok, mapError_eq_ok] at h
    obtain ⟨symbol, hsymbol, h⟩ := h
    split at h
    next symbols hinsert =>
      obtain rfl := pure_eq_ok.mp h
      obtain ⟨hname, rfl⟩ := SymbolTable.insert?_eq_some.mp hinsert
      exact .inl ⟨kind, symbol, hsymbol, hname, rfl⟩
    next => cases throw_eq_ok.mp h
  next =>
    simp only [mapError_eq_ok, bind_eq_ok, pure_eq_ok] at h
    obtain ⟨kind, -, title, htitle, rfl⟩ := h
    exact .inr (.inl ⟨kind, title, htitle, rfl⟩)
  next =>
    simp only [mapError_eq_ok, bind_eq_ok, pure_eq_ok] at h
    obtain ⟨values, hvalues, rfl⟩ := h
    exact .inr (.inr ⟨values, hvalues, rfl⟩)
  next => cases throw_eq_ok.mp h

/-- Directives keep to what can be declared. -/
theorem directive_declared {name : String}
    (harguments : ∀ token ∈ arguments, token.IsReadable)
    (hdraft : Declared draft.name draft.constants draft.symbols)
    (h : draft.directive name arguments = .ok next) :
    Declared next.name next.constants next.symbols := by
  obtain ⟨kind, symbol, hsymbol, hname, rfl⟩ | ⟨kind, title, htitle, rfl⟩ | ⟨values, hvalues, rfl⟩ :=
    directive_cases h
  · refine { hdraft with isDeclared := ?_, distinct := ?_ }
    · intro other hother
      obtain hother | rfl := Array.mem_push.mp hother
      · exact hdraft.isDeclared other hother
      · exact symbol_isDeclared harguments hsymbol
    · exact nodup_push hdraft.distinct hname
  · exact { hdraft with isName := wordAt_isName harguments htitle }
  · refine { hdraft with isLiteral := ?_ }
    intro value hvalue
    rw [← Array.mem_toList_iff, Array.toList_appendList, List.mem_append,
      Array.mem_toList_iff] at hvalue
    obtain hvalue | hvalue := hvalue
    · exact hdraft.isLiteral value hvalue
    · exact isLiteral_of_constantList harguments hvalues value hvalue

end Draft

namespace Draft

variable {draft next : Draft} {number : Nat}

theorem mark_eq_ok {label : String} : draft.mark label = .ok next ↔
    draft.labels.contains label = false ∧
      next = { draft with labels := draft.labels.insert label draft.code.size } := by
  unfold mark
  cases draft.labels.contains label <;> simp [eq_comm]

theorem onLine_eq_ok {α : Type} {result : Except (Failure AssemblyCause) α} {a : α} :
    onLine number result = .ok a ↔ result = .ok a :=
  mapError_eq_ok

/-- What a line does that can be read. -/
theorem addLine_eq_ok {text : List Char} : draft.addLine number text = .ok next ↔
    ∃ line, Line.parse? (beforeComment text) = some line ∧
      draft.addParsed number line = .ok next := by
  unfold addLine
  split
  next line hline => simp [hline, onLine_eq_ok]
  next hline => simp [hline]

/-- A line marks the place it stands at, then adds what it says. -/
theorem addParsed_eq_ok {line : Line} : draft.addParsed number line = .ok next ↔
    ∃ marked, (∀ label, line.label = some label → draft.mark label = .ok marked) ∧
      (line.label = none → draft = marked) ∧
      (∀ statement, line.statement = some statement →
        marked.addStatement number statement = .ok next) ∧
      (line.statement = none → marked = next) := by
  obtain ⟨label, statement⟩ := line
  unfold addParsed
  cases label <;> cases statement <;> simp

theorem mark_declared {label : String} (hdraft : Declared draft.name draft.constants draft.symbols)
    (h : draft.mark label = .ok next) : Declared next.name next.constants next.symbols := by
  obtain ⟨-, rfl⟩ := mark_eq_ok.mp h
  exact hdraft

theorem addLine_declared {text : List Char} (hline : '\n' ∉ text)
    (hdraft : Declared draft.name draft.constants draft.symbols)
    (h : draft.addLine number text = .ok next) :
    Declared next.name next.constants next.symbols := by
  obtain ⟨⟨label, statement⟩, hparse, hadded⟩ := addLine_eq_ok.mp h
  obtain ⟨marked, hmark, hunmarked, hadd, hnone⟩ := addParsed_eq_ok.mp hadded
  have hmarked : Declared marked.name marked.constants marked.symbols := by
    cases label with
    | none => exact hunmarked rfl ▸ hdraft
    | some label => exact mark_declared hdraft (hmark label rfl)
  cases statement with
  | none => exact hnone rfl ▸ hmarked
  | some statement =>
    have hadd := hadd statement rfl
    cases statement with
    | directive name arguments =>
      exact directive_declared
        (Line.parse?_tokens (fun hmem => hline (beforeComment_subset hmem)) hparse) hmarked
        (mapError_eq_ok.mp hadd)
    | operation mnemonic key operands =>
      simp only [addStatement, bind_eq_ok, pure_eq_ok] at hadd
      obtain ⟨slots, -, rfl⟩ := hadd
      exact hmarked

theorem finish_eq_ok {shader : Shader} : draft.finish = .ok shader ↔
    ∃ code, draft.code.toList.mapM draft.resolve = .ok code ∧
      shader = {
        kind := draft.kind
        name := draft.name
        code := code.toArray
        constants := draft.constants
        symbols := draft.symbols
        temporaries := draft.temporaries } := by
  simp [finish, @eq_comm Shader]

end Draft

/-- Assembling goes through the lines of the text, then resolves the labels. -/
theorem assemble_eq_ok {text : String} {shader : Shader} : assemble text = .ok shader ↔
    ∃ draft, ((splitLines text.toList).zipIdx 1).foldlM
        (fun (draft : Draft) line => draft.addLine line.2 line.1) Draft.new = .ok draft ∧
      draft.finish = .ok shader := by
  simp [assemble]

/-- An assembled shader declares only what a text can say. -/
theorem assemble_declared {text : String} {shader : Shader} (h : assemble text = .ok shader) :
    Declared shader.name shader.constants shader.symbols := by
  obtain ⟨draft, hlines, hfinish⟩ := assemble_eq_ok.mp h
  obtain ⟨code, -, rfl⟩ := Draft.finish_eq_ok.mp hfinish
  refine foldlM_invariant (fun draft : Draft => Declared draft.name draft.constants draft.symbols)
    ?_ ?_ hlines
  · refine ⟨⟨'m', ['a', 'i', 'n'], rfl, rfl, List.all_eq_true.mp rfl⟩, ?_, ?_, List.nodup_nil⟩
    · simp [Draft.new]
    · simp [Draft.new, SymbolTable.empty]
  · rintro draft ⟨line, number⟩ next hmem hdraft hadd
    exact Draft.addLine_declared (not_mem_splitLines (List.fst_mem_of_mem_zipIdx hmem)) hdraft hadd

end Shading
