import Shading.Proofs.Grammar

namespace Shading

/-!
# The layout of lines

How the items of a line may be laid out: what may stand between two of them, and where the label, the
statement and blanks go.  Reading accepts just these layouts, and a comment is not read.

* `IsSeparator`, `MoreOf`, `ArgumentsOf` — lists of items;
* `Statement.IsWritten`, `LabelOf`, `Line.IsLayout` — whole lines;
* `Line.isLayout_of_parse?`, `Line.parse?_of_isLayout` — what is read is a layout, and the reverse;
* `Line.parse?_reads_grammar` — reading against the grammar, comments included.
-/

/-! ### Lists of items -/

/-- What stands between two items: some blanks, or a comma with any blanks around it. -/
inductive IsSeparator : List Char → Prop
  | blank {blank : List Char} (hne : blank ≠ []) (hblank : IsBlank blank) : IsSeparator blank
  | comma {before after : List Char} (hbefore : IsBlank before) (hafter : IsBlank after) :
      IsSeparator (before ++ ',' :: after)

/-- Further items, each after a separator. -/
inductive MoreOf {α : Type} (item : List Char → α → Prop) : List Char → List α → Prop
  | nil : MoreOf item [] []
  | cons {separator text more : List Char} {x : α} {xs : List α} (hseparator : IsSeparator separator)
      (first : item text x) (rest : MoreOf item more xs) :
      MoreOf item (separator ++ (text ++ more)) (x :: xs)

/-- The arguments of a line: none, or the first one after some blanks and further ones. -/
inductive ArgumentsOf {α : Type} (item : List Char → α → Prop) : List Char → List α → Prop
  | nil : ArgumentsOf item [] []
  | cons {blank text more : List Char} {x : α} {xs : List α} (hne : blank ≠ [])
      (hblank : IsBlank blank) (first : item text x) (rest : MoreOf item more xs) :
      ArgumentsOf item (blank ++ (text ++ more)) (x :: xs)

theorem eq_of_separator? {text rest : List Char} (h : separator? text = some rest) :
    ∃ separator, IsSeparator separator ∧ text = separator ++ rest := by
  obtain ⟨before, hbefore, htext⟩ := exists_blank text
  unfold separator? at h
  split at h
  next last hcomma =>
    obtain rfl := Option.some.inj h
    obtain ⟨after, hafter, hlast⟩ := exists_blank last
    refine ⟨_, .comma hbefore hafter, ?_⟩
    rw [List.append_assoc, List.cons_append, ← hlast, ← hcomma]
    exact htext
  next c tail _ =>
    split at h
    next hc =>
      obtain rfl := Option.some.inj h
      obtain ⟨blank, hne, hblank, htext⟩ := exists_blank_cons hc tail
      exact ⟨blank, .blank hne hblank, htext⟩
    next => cases h
  next => cases h

theorem IsSeparator.separator?_append {separator text : List Char} (h : IsSeparator separator)
    (htext : BeginsItem text) : separator? (separator ++ text) = some text := by
  cases h with
  | blank hne hblank =>
    have hskip : skipSpace (separator ++ text) = text := by
      rw [hblank.skipSpace_append, htext.skipSpace_eq]
    obtain ⟨c, tail, rfl⟩ := List.exists_cons_of_ne_nil hne
    unfold separator?
    rw [hskip]
    split
    next => exact absurd rfl (htext.head_ne rfl ',' rfl)
    next heq =>
      obtain ⟨rfl, -⟩ := List.cons.inj heq
      rw [if_pos (hblank c List.mem_cons_self)]
    next heq => cases heq
  | @comma before after hbefore hafter =>
    have hskip : skipSpace (before ++ ',' :: after ++ text) = ',' :: (after ++ text) := by
      rw [List.append_assoc, hbefore.skipSpace_append]
      rfl
    simp only [separator?, hskip, hafter.skipSpace_append, htext.skipSpace_eq]

theorem IsSeparator.endsItem {separator : List Char} (h : IsSeparator separator)
    (rest : List Char) : EndsItem (separator ++ rest) := by
  cases h with
  | blank hne hblank =>
    obtain ⟨c, tail, rfl⟩ := List.exists_cons_of_ne_nil hne
    cases hblank.endsItem with
    | space => exact .space _
    | tab => exact .tab _
    | comma => exact .comma _
  | @comma before after hbefore hafter =>
    rw [List.append_assoc]
    exact hbefore.endsItem.append (.comma _)

section Lists

variable {α : Type} {item : List Char → Scan α} {written : List Char → α → Prop}
  {text rest trail : List Char} {xs : List α} {count : Nat}

theorem MoreOf.imp {item' : List Char → α → Prop} (himp : ∀ text x, written text x → item' text x)
    (h : MoreOf written text xs) : MoreOf item' text xs := by
  induction h with
  | nil => exact .nil
  | cons hseparator first rest ih => exact .cons hseparator (himp _ _ first) ih

theorem ArgumentsOf.imp {item' : List Char → α → Prop}
    (himp : ∀ text x, written text x → item' text x) (h : ArgumentsOf written text xs) :
    ArgumentsOf item' text xs := by
  cases h with
  | nil => exact .nil
  | cons hne hblank first rest => exact .cons hne hblank (himp _ _ first) (rest.imp himp)

/-- Arguments after a blank of their own are further items. -/
theorem ArgumentsOf.moreOf (h : ArgumentsOf written text xs) : MoreOf written text xs := by
  cases h with
  | nil => exact .nil
  | cons hne hblank first rest => exact .cons (.blank hne hblank) first rest

section Soundness

variable (hitem : ∀ text x rest, item text = .found x rest →
  ∃ start, written start x ∧ text = start ++ rest)

include hitem

theorem moreOf_of_scanMore (h : scanMore item count text = .found xs rest) :
    ∃ more, MoreOf written more xs ∧ text = more ++ rest := by
  induction count generalizing text xs with
  | zero =>
    simp only [scanMore, Scan.found.injEq] at h
    obtain ⟨rfl, rfl⟩ := h
    exact ⟨[], .nil, rfl⟩
  | succ count ih =>
    rw [scanMore] at h
    split at h
    next =>
      simp only [Scan.found.injEq] at h
      obtain ⟨rfl, rfl⟩ := h
      exact ⟨[], .nil, rfl⟩
    next after hseparator =>
      obtain ⟨separator, hsep, rfl⟩ := eq_of_separator? hseparator
      -- a separator with no item behind it is left unread
      split at h
      next =>
        simp only [Scan.found.injEq] at h
        obtain ⟨rfl, rfl⟩ := h
        exact ⟨[], .nil, rfl⟩
      next => cases h
      next x tail hx =>
        obtain ⟨start, hstart, rfl⟩ := hitem _ _ _ hx
        split at h
        next last hxs =>
          simp only [Scan.found.injEq] at h
          obtain ⟨rfl, rfl⟩ := h
          obtain ⟨more, hmore, rfl⟩ := ih hxs
          exact ⟨_, .cons hsep hstart hmore, by simp⟩
        next => cases h

theorem argumentsOf_of_scanArguments (h : scanArguments item text = .found xs rest) :
    ∃ arguments blank, ArgumentsOf written arguments xs ∧ IsBlank blank ∧
      text = arguments ++ (blank ++ rest) := by
  unfold scanArguments at h
  split at h
  next c tail =>
    split at h
    next hc =>
      obtain ⟨blank, hne, hblank, htext⟩ := exists_blank_cons hc tail
      unfold scanItems at h
      split at h
      next =>
        simp only [Scan.found.injEq] at h
        obtain ⟨rfl, rfl⟩ := h
        exact ⟨[], blank, .nil, hblank, htext⟩
      next => cases h
      next x after hx =>
        obtain ⟨start, hstart, hsplit⟩ := hitem _ _ _ hx
        split at h
        next last hxs =>
          simp only [Scan.found.injEq] at h
          obtain ⟨rfl, rfl⟩ := h
          obtain ⟨more, hmore, rfl⟩ := moreOf_of_scanMore hitem hxs
          refine ⟨_, [], .cons hne hblank hstart hmore, .nil, ?_⟩
          rw [htext, hsplit]
          simp
        next => cases h
    next =>
      simp only [Scan.found.injEq] at h
      obtain ⟨rfl, rfl⟩ := h
      exact ⟨[], [], .nil, .nil, rfl⟩
  next =>
    simp only [Scan.found.injEq] at h
    obtain ⟨rfl, rfl⟩ := h
    exact ⟨[], [], .nil, .nil, rfl⟩

end Soundness

theorem MoreOf.length_le (h : MoreOf (Spells item) text xs) : xs.length ≤ text.length := by
  induction h with
  | nil => exact Nat.le_refl _
  | cons hseparator first rest ih =>
    obtain ⟨c, tail, rfl, -⟩ := first.beginsItem
    simp only [List.length_cons, List.length_append]
    omega

theorem MoreOf.endsItem (h : MoreOf written text xs) (htrail : IsBlank trail) :
    EndsItem (text ++ trail) := by
  cases h with
  | nil => exact htrail.endsItem
  | cons hseparator =>
    rw [List.append_assoc]
    exact hseparator.endsItem _

theorem ArgumentsOf.endsItem (h : ArgumentsOf written text xs) (htrail : IsBlank trail) :
    EndsItem (text ++ trail) :=
  h.moreOf.endsItem htrail

/-- Blanks at the end of a line hold no item. -/
theorem scanMore_blank (hempty : item [] = .absent) (htrail : IsBlank trail) :
    scanMore item count trail = .found [] trail := by
  cases count with
  | zero => rfl
  | succ count =>
    have hskip := skipSpace_eq_nil.mpr htrail
    rw [scanMore]
    cases trail with
    | nil => rfl
    | cons c tail =>
      have hseparator : separator? (c :: tail) = some [] := by
        unfold separator?
        rw [hskip]
        simp [htrail c List.mem_cons_self]
      rw [hseparator]
      simp only [hempty]

theorem MoreOf.scanMore_eq (h : MoreOf (Spells item) text xs) (hempty : item [] = .absent)
    (htrail : IsBlank trail) (hcount : xs.length ≤ count) :
    scanMore item count (text ++ trail) = .found xs trail := by
  induction h generalizing count with
  | nil => exact scanMore_blank hempty htrail
  | @cons separator text more x xs hseparator first rest ih =>
    cases count with
    | zero => cases hcount
    | succ count =>
      have hread := first.scan_eq _ (rest.endsItem htrail)
      have hmore := ih (Nat.le_of_succ_le_succ hcount)
      rw [List.append_assoc, List.append_assoc, scanMore,
        hseparator.separator?_append (first.beginsItem.append _)]
      simp only [hread, hmore]

theorem ArgumentsOf.scanArguments_eq (h : ArgumentsOf (Spells item) text xs)
    (hempty : item [] = .absent) (htrail : IsBlank trail) :
    ∃ rest, scanArguments item (text ++ trail) = .found xs rest ∧ IsBlank rest := by
  cases h with
  | nil =>
    cases trail with
    | nil => exact ⟨[], rfl, htrail⟩
    | cons c tail =>
      have hskip := skipSpace_eq_nil.mpr htrail
      refine ⟨[], ?_, .nil⟩
      simp only [List.nil_append, scanArguments, htrail c List.mem_cons_self, if_true, hskip,
        scanItems, hempty]
  | @cons blank text more x xs hne hblank first rest =>
    have hread := first.scan_eq _ (rest.endsItem htrail)
    have hcount : xs.length ≤ (more ++ trail).length := by
      have hle := rest.length_le
      rw [List.length_append]
      omega
    have hmore := rest.scanMore_eq hempty htrail hcount
    have hskip : skipSpace (blank ++ (text ++ (more ++ trail))) = text ++ (more ++ trail) := by
      rw [hblank.skipSpace_append, (first.beginsItem.append _).skipSpace_eq]
    rw [List.append_assoc, List.append_assoc]
    obtain ⟨c, tail, rfl⟩ := List.exists_cons_of_ne_nil hne
    refine ⟨trail, ?_, htrail⟩
    rw [List.cons_append] at hskip ⊢
    simp only [scanArguments, hblank c List.mem_cons_self, if_true, hskip, scanItems, hread, hmore]

/-- The first argument is not taken for the colon of a label. -/
theorem ArgumentsOf.head_ne (h : ArgumentsOf (Spells item) text xs) (htrail : IsBlank trail) :
    ∀ c ∈ (skipSpace (text ++ trail)).head?, c ≠ ':' := by
  cases h with
  | nil =>
    rw [List.nil_append, skipSpace_eq_nil.mpr htrail]
    simp
  | cons hne hblank first rest =>
    rw [List.append_assoc, List.append_assoc, hblank.skipSpace_append,
      (first.beginsItem.append _).skipSpace_eq]
    exact (first.beginsItem.append _).head_ne rfl

end Lists

/-! ### Statements -/

/-- A key that can stand after a mnemonic: letters and digits. -/
def IsKeyText (key : Option String) : Prop :=
  ∀ text, key = some text → text.toList ≠ [] ∧ ∀ c ∈ text.toList, c.isAlphanum = true

/-- How the key of an operation is written. -/
def keyChars : Option String → List Char
  | none => []
  | some key => '.' :: key.toList

/-- A statement as it stands in a line. -/
inductive Statement.IsWritten : List Char → Statement → Prop
  | directive {name : String} {text : List Char} {tokens : List Token} (hname : IsName name)
      (harguments : ArgumentsOf Token.IsWritten text tokens) :
      IsWritten ('.' :: (name.toList ++ text)) (.directive name tokens)
  | operation {mnemonic : String} {key : Option String} {text : List Char} {operands : List Operand}
      (hmnemonic : IsName mnemonic) (hkey : IsKeyText key)
      (harguments : ArgumentsOf Operand.IsWritten text operands) :
      IsWritten (mnemonic.toList ++ (keyChars key ++ text)) (.operation mnemonic key operands)

section Statements

variable {text rest trail : List Char} {key : Option String} {statement : Statement}

theorem eq_of_key? (h : key? text = (key, rest)) : IsKeyText key ∧ text = keyChars key ++ rest := by
  unfold key? at h
  split at h
  next after =>
    dsimp only at h
    split at h
    next =>
      obtain ⟨rfl, rfl⟩ := Prod.mk.inj h
      exact ⟨fun _ hkey => (by cases hkey), rfl⟩
    next hne =>
      obtain ⟨rfl, rfl⟩ := Prod.mk.inj h
      refine ⟨?_, ?_⟩
      · rintro _ ⟨⟩
        rw [String.toList_ofList]
        exact ⟨by simpa using hne, List.all_eq_true.mp List.all_takeWhile⟩
      · rw [keyChars, String.toList_ofList, List.cons_append, List.takeWhile_append_dropWhile]
  next =>
    obtain ⟨rfl, rfl⟩ := Prod.mk.inj h
    exact ⟨fun _ hkey => (by cases hkey), rfl⟩

theorem key?_append (hrest : EndsItem rest) (hkey : IsKeyText key) :
    key? (keyChars key ++ rest) = (key, rest) := by
  cases key with
  | none => cases hrest <;> rfl
  | some text =>
    obtain ⟨hne, halphanum⟩ := hkey text rfl
    have hstop : ∀ c ∈ rest.head?, c.isAlphanum = false := by
      cases hrest <;> simp
    obtain ⟨htake, hdrop⟩ := span_append halphanum hstop
    have hempty : text.toList.isEmpty = false := List.isEmpty_eq_false_iff.mpr hne
    show key? ('.' :: (text.toList ++ rest)) = _
    simp only [key?, htake, hdrop, hempty, String.ofList_toList, Bool.false_eq_true, if_false]

namespace Statement

theorem eq_of_scan (h : scan text = .found statement rest) :
    ∃ start blank, IsWritten start statement ∧ IsBlank blank ∧ text = start ++ (blank ++ rest) := by
  unfold scan at h
  split at h
  next after =>
    split at h
    next => cases h
    next name tail hname =>
      obtain ⟨hisName, rfl⟩ := eq_of_name? hname
      split at h
      next tokens last htokens =>
        simp only [Scan.found.injEq] at h
        obtain ⟨rfl, rfl⟩ := h
        obtain ⟨arguments, blank, harguments, hblank, rfl⟩ :=
          argumentsOf_of_scanArguments (fun _ _ _ => Token.eq_of_scan) htokens
        exact ⟨_, blank, .directive hisName harguments, hblank, by simp⟩
      next => cases h
      next => cases h
  next =>
    split at h
    next => cases h
    next mnemonic tail hname =>
      obtain ⟨hisName, rfl⟩ := eq_of_name? hname
      split at h
      next key after hkey =>
        obtain ⟨hkeyText, rfl⟩ := eq_of_key? hkey
        split at h
        next operands last hoperands =>
          simp only [Scan.found.injEq] at h
          obtain ⟨rfl, rfl⟩ := h
          obtain ⟨arguments, blank, harguments, hblank, rfl⟩ :=
            argumentsOf_of_scanArguments (fun _ _ _ => Operand.eq_of_scan) hoperands
          exact ⟨_, blank, .operation hisName hkeyText harguments, hblank, by simp⟩
        next => cases h
        next => cases h

/-- What follows a mnemonic is no part of it. -/
theorem head_keyChars (key : Option String) (hrest : EndsItem rest) :
    ∀ c ∈ (keyChars key ++ rest).head?, isNamePart c = false := by
  cases key with
  | none => exact hrest.not_isNamePart
  | some key =>
    simp [keyChars]
    decide

theorem IsWritten.beginsItem (h : IsWritten text statement) : BeginsItem text := by
  cases h with
  | directive => exact ⟨'.', _, rfl, rfl⟩
  | operation hmnemonic => exact hmnemonic.beginsItem.append _

/-- A mnemonic and its key are read, and what follows them for operands. -/
theorem scan_mnemonic {mnemonic : String} {after : List Char} (hmnemonic : IsName mnemonic)
    (hkey : IsKeyText key) (hrest : EndsItem rest) :
    scan (mnemonic.toList ++ (keyChars key ++ rest)) = .found statement after ↔
      ∃ operands, scanArguments Operand.scan rest = .found operands after ∧
        statement = .operation mnemonic key operands := by
  have hnamed := name?_append hmnemonic (head_keyChars key hrest)
  obtain ⟨c, tail, htext, hstart, -⟩ := hmnemonic
  rw [htext, List.cons_append] at hnamed ⊢
  unfold scan
  split
  next heq =>
    obtain ⟨rfl, -⟩ := List.cons.inj heq
    cases hstart
  next =>
    simp only [hnamed, key?_append hrest hkey]
    cases scanArguments Operand.scan rest <;> simp [and_comm, eq_comm]

/-- A mnemonic is not taken for a label. -/
theorem label?_mnemonic {mnemonic : String} (hmnemonic : IsName mnemonic) (hrest : EndsItem rest)
    (hcolon : ∀ c ∈ (skipSpace rest).head?, c ≠ ':') :
    label? (mnemonic.toList ++ (keyChars key ++ rest))
      = (none, mnemonic.toList ++ (keyChars key ++ rest)) := by
  have hfirst : ∀ c ∈ (skipSpace (keyChars key ++ rest)).head?, c ≠ ':' := by
    cases key with
    | none => exact hcolon
    | some key => simp [keyChars, skipSpace, isSpace]
  simp only [label?, name?_append hmnemonic (head_keyChars key hrest)]
  split
  next heq =>
    rw [heq] at hfirst
    exact absurd rfl (hfirst ':' rfl)
  next => rfl

theorem IsWritten.scan_append (h : IsWritten text statement) (htrail : IsBlank trail) :
    ∃ rest, scan (text ++ trail) = .found statement rest ∧ IsBlank rest := by
  cases h with
  | @directive name text tokens hname harguments =>
    have hspells := harguments.imp fun _ _ h => h.spells
    obtain ⟨rest, hread, hrest⟩ := hspells.scanArguments_eq rfl htrail
    have hnamed := name?_append hname (harguments.endsItem htrail).not_isNamePart
    refine ⟨rest, ?_, hrest⟩
    rw [List.cons_append, List.append_assoc]
    simp only [scan, hnamed, hread]
  | @operation mnemonic key text operands hmnemonic hkey harguments =>
    have hspells := harguments.imp fun _ _ h => h.spells
    obtain ⟨rest, hread, hrest⟩ := hspells.scanArguments_eq rfl htrail
    refine ⟨rest, ?_, hrest⟩
    rw [List.append_assoc, List.append_assoc]
    exact (scan_mnemonic hmnemonic hkey (harguments.endsItem htrail)).mpr ⟨operands, hread, rfl⟩

/-- A statement is not taken for a label. -/
theorem IsWritten.label?_append (h : IsWritten text statement) (htrail : IsBlank trail) :
    label? (text ++ trail) = (none, text ++ trail) := by
  cases h with
  | directive => rfl
  | @operation mnemonic key text operands hmnemonic hkey harguments =>
    have hcolon := (harguments.imp fun _ _ h => h.spells).head_ne htrail
    rw [List.append_assoc, List.append_assoc]
    exact label?_mnemonic hmnemonic (harguments.endsItem htrail) hcolon

end Statement

end Statements

/-! ### Lines -/

/-- A label with its colon and any blanks around it, if there is one. -/
inductive LabelOf : List Char → Option String → Prop
  | none : LabelOf [] none
  | some {name : String} {before after : List Char} (hname : IsName name) (hbefore : IsBlank before)
      (hafter : IsBlank after) : LabelOf (name.toList ++ (before ++ ':' :: after)) (some name)

/-- A statement, if there is one. -/
inductive StatementOf : List Char → Option Statement → Prop
  | none : StatementOf [] none
  | some {text : List Char} {statement : Statement} (h : statement.IsWritten text) :
      StatementOf text (some statement)

/-- The text is laid out as a label and a statement, with any blanks at both ends. -/
inductive Line.IsLayout : List Char → Line → Prop
  | mk {lead label statement trail : List Char} {name : Option String} {said : Option Statement}
      (hlead : IsBlank lead) (hlabel : LabelOf label name) (hstatement : StatementOf statement said)
      (htrail : IsBlank trail) : IsLayout (lead ++ (label ++ (statement ++ trail))) ⟨name, said⟩

theorem eq_of_label? {text rest : List Char} {label : Option String} (h : label? text = (label, rest)) :
    ∃ start, LabelOf start label ∧ text = start ++ rest := by
  unfold label? at h
  split at h
  next name tail hname =>
    obtain ⟨hisName, rfl⟩ := eq_of_name? hname
    obtain ⟨before, hbefore, htail⟩ := exists_blank tail
    split at h
    next after hcolon =>
      obtain ⟨rfl, rfl⟩ := Prod.mk.inj h
      obtain ⟨blank, hblank, hafter⟩ := exists_blank after
      refine ⟨_, .some hisName hbefore hblank, ?_⟩
      rw [List.append_assoc, List.append_assoc, List.cons_append, ← hafter, ← hcolon, ← htail]
    next =>
      obtain ⟨rfl, rfl⟩ := Prod.mk.inj h
      exact ⟨[], .none, rfl⟩
  next =>
    obtain ⟨rfl, rfl⟩ := Prod.mk.inj h
    exact ⟨[], .none, rfl⟩

namespace Line

variable {text : List Char} {line : Line}

/-- **Soundness.**  What is read as a line is a layout of it. -/
theorem isLayout_of_parse? (h : parse? text = some line) : IsLayout text line := by
  obtain ⟨lead, hlead, htext⟩ := exists_blank text
  unfold parse? at h
  split at h
  next label start hlabel =>
    obtain ⟨mark, hmark, hstart⟩ := eq_of_label? hlabel
    rw [htext, hstart]
    split at h
    next statement rest hscan =>
      obtain ⟨said, blank, hsaid, hblank, rfl⟩ := Statement.eq_of_scan hscan
      split at h
      next hempty =>
        obtain rfl := Option.some.inj h
        have hrest := skipSpace_eq_nil.mp (List.isEmpty_iff.mp hempty)
        exact .mk hlead hmark (.some hsaid) (hblank.append hrest)
      next => cases h
    next =>
      split at h
      next hempty =>
        obtain rfl := Option.some.inj h
        exact .mk hlead hmark .none (skipSpace_eq_nil.mp (List.isEmpty_iff.mp hempty))
      next => cases h
    next => cases h

/-- The part of a line after its label. -/
theorem parse?_statement {label : Option String} {start said trail : List Char}
    {statement : Option Statement} (hstatement : StatementOf said statement) (htrail : IsBlank trail)
    (hlabel : label? (skipSpace start) = (label, skipSpace (said ++ trail))) :
    parse? start = some ⟨label, statement⟩ := by
  unfold parse?
  rw [hlabel]
  dsimp only
  cases hstatement with
  | none =>
    rw [List.nil_append, skipSpace_eq_nil.mpr htrail]
    rfl
  | some h =>
    obtain ⟨rest, hscan, hrest⟩ := h.scan_append htrail
    rw [(h.beginsItem.append trail).skipSpace_eq, hscan]
    dsimp only
    rw [skipSpace_eq_nil.mpr hrest]
    rfl

/-- **Completeness.**  A layout of a line is read as the line. -/
theorem parse?_of_isLayout (h : IsLayout text line) : parse? text = some line := by
  cases h with
  | @mk lead label statement trail name said hlead hlabel hstatement htrail =>
    refine parse?_statement hstatement htrail ?_
    rw [hlead.skipSpace_append]
    cases hlabel with
    | none =>
      rw [List.nil_append]
      cases hstatement with
      | none =>
        rw [List.nil_append, skipSpace_eq_nil.mpr htrail]
        rfl
      | some h =>
        rw [(h.beginsItem.append trail).skipSpace_eq]
        exact h.label?_append htrail
    | @some name before after hname hbefore hafter =>
      have hcolon : skipSpace (before ++ ':' :: (after ++ (statement ++ trail)))
          = ':' :: (after ++ (statement ++ trail)) := hbefore.skipSpace_append _
      have hends : ∀ c ∈ (before ++ ':' :: (after ++ (statement ++ trail))).head?,
          isNamePart c = false := by
        cases before with
        | nil =>
          rintro _ ⟨⟩
          decide
        | cons c before => exact hbefore.endsItem.not_isNamePart
      rw [List.append_assoc, List.append_assoc, List.cons_append,
        (hname.beginsItem.append _).skipSpace_eq]
      simp only [label?, name?_append hname hends, hcolon]
      rw [hafter.skipSpace_append]

end Line

/-! ### Comments -/

/-- Every string of the text is closed: there are characters outside of strings, whole strings, and
    perhaps a comment. -/
inductive ClosesStrings : List Char → Prop
  | nil : ClosesStrings []
  | comment (rest : List Char) : ClosesStrings (';' :: rest)
  | plain {c : Char} {rest : List Char} (hquote : c ≠ '"') (hcomment : c ≠ ';')
      (h : ClosesStrings rest) : ClosesStrings (c :: rest)
  | string {inner rest : List Char} (hinner : '"' ∉ inner) (h : ClosesStrings rest) :
      ClosesStrings ('"' :: (inner ++ '"' :: rest))

theorem beforeCommentFrom_string {inner rest : List Char} (hinner : '"' ∉ inner) :
    beforeCommentFrom true (inner ++ '"' :: rest) = inner ++ '"' :: beforeCommentFrom false rest := by
  induction inner with
  | nil => rfl
  | cons c inner ih =>
    rw [List.mem_cons, not_or] at hinner
    have hc : ¬ (c = ';' ∧ true = false) := by simp
    have hstate : (if c = '"' then !true else true) = true := if_neg (Ne.symm hinner.1)
    rw [List.cons_append, beforeCommentFrom, if_neg hc, hstate, ih hinner.2, List.cons_append]

/-- A comment after closed strings is not read. -/
theorem ClosesStrings.beforeComment_append {text : List Char} (h : ClosesStrings text)
    (rest : List Char) : beforeComment (text ++ ';' :: rest) = beforeComment text := by
  unfold beforeComment
  induction h with
  | nil => rfl
  | comment => rfl
  | plain hquote hcomment h ih =>
    have hc : ∀ c : Char, c ≠ ';' → ¬ (c = ';' ∧ false = false) := fun c hc h => hc h.1
    rw [List.cons_append, beforeCommentFrom, beforeCommentFrom, if_neg (hc _ hcomment),
      if_neg (hc _ hcomment), if_neg hquote, ih]
  | @string inner after hinner h ih =>
    have hopen : ∀ text, beforeCommentFrom false ('"' :: text) = '"' :: beforeCommentFrom true text :=
      fun _ => rfl
    rw [List.cons_append, List.append_assoc, List.cons_append, hopen, hopen,
      beforeCommentFrom_string hinner, beforeCommentFrom_string hinner, ih]

/-- **Grammar.**  The part of a line before its comment is read as a line exactly if it is a layout of
    it, which it is of one line at most.  A comment behind closed strings makes no difference. -/
theorem Line.parse?_reads_grammar (text : List Char) :
    (∀ line, parse? (beforeComment text) = some line ↔ IsLayout (beforeComment text) line) ∧
      (∀ line line', IsLayout (beforeComment text) line → IsLayout (beforeComment text) line' →
        line = line') ∧
      (ClosesStrings text → ∀ rest,
        parse? (beforeComment (text ++ ';' :: rest)) = parse? (beforeComment text)) := by
  refine ⟨fun line => ⟨isLayout_of_parse?, parse?_of_isLayout⟩, fun line line' h h' => ?_,
    fun hclosed rest => by rw [hclosed.beforeComment_append]⟩
  have hread := (parse?_of_isLayout h).symm.trans (parse?_of_isLayout h')
  exact Option.some.inj hread

end Shading
