import Shading.Proofs.Reading

namespace Shading

/-!
# Listings assemble to the shader they list

A listing has a label for each offset that a jump leads to.  Assembling it puts each of these labels
where it belongs, so the jumps get their offsets back and the shader is the one that was listed.

* `Relisted` — drafts that hold the operations listed so far and the labels passed so far;
* `Relisted.mark`, `Relisted.operation` — what a label line and an operation line make of them;
* `Relisted.finish` — the shader at the end;
* `listing_reassembles` — listing and assembling again changes nothing.
-/

namespace Operation

theorem map_map {τ υ φ : Type} (g : υ → φ) (f : τ → υ) (operation : Operation τ) :
    (operation.map f).map g = operation.map (g ∘ f) := by
  cases operation <;> rfl

theorem map_eq_self {f : Nat → Nat} {operation : Operation Nat}
    (h : ∀ target, operation.target? = some target → f target = target) :
    operation.map f = operation := by
  cases operation with
  | jump condition target => exact congrArg (jump condition) (h target rfl)
  | call function result arguments => rfl
  | convert key result source type => rfl
  | plain opcode key operands => rfl

end Operation

theorem labelText_inj {offset offset' : Nat}
    (h : Shader.labelText offset = Shader.labelText offset') : offset = offset' := by
  have hchars : offset.repr.toList = offset'.repr.toList := by
    simpa [Shader.labelText, ← String.toList_inj] using h
  have hread := congrArg (Nat.ofDigitChars 10 · 0) hchars
  simpa only [Nat.toList_repr, Nat.ofDigitChars_ten_toDigits] using hread

/-! ### Drafts of a listing -/

/-- A draft that declares what the shader does, holds operations of its code, and has a label at those
    of the given places that are targets. -/
structure Relisted (shader : Shader) (targets : List Nat) (operations : List (Operation Nat))
    (places : List Nat) (draft : Draft) : Prop where
  kind_eq : draft.kind = shader.kind
  name_eq : draft.name = shader.name
  symbols_eq : draft.symbols = shader.symbols
  constants_eq : draft.constants = shader.constants
  /-- Targets are labels so far, on some lines of the listing. -/
  exists_drafted : ∃ drafted : List (Operation (String × Nat)),
    draft.code.toList = drafted.flatMap Operation.slots ∧
      drafted.map (Operation.map Prod.fst) = operations.map (Operation.map Shader.labelText)
  find?_eq_some : ∀ label offset, draft.labels.find? label = some offset ↔
    label = Shader.labelText offset ∧ offset ∈ targets ∧ offset ∈ places
  temporaries_eq : draft.temporaries = Operation.temporaries operations

namespace Relisted

variable {shader : Shader} {targets places : List Nat} {operations : List (Operation Nat)}
  {draft : Draft}

theorem size_code (h : Relisted shader targets operations places draft) :
    draft.code.size = Operation.totalSize operations := by
  obtain ⟨drafted, hcode, hdrafted⟩ := h.exists_drafted
  have hsizes := congrArg Operation.totalSize hdrafted
  rw [Operation.totalSize_map, Operation.totalSize_map] at hsizes
  rw [← Array.length_toList, hcode, ← hsizes]
  exact Operation.length_flatMap_layout _ _

/-- A place that is not marked has no label. -/
theorem find?_unmarked {label : String} {place : Nat}
    (h : Relisted shader targets operations places draft)
    (hunmarked : label = Shader.labelText place → place ∉ targets) (offset : Nat) :
    draft.labels.find? label = some offset ↔
      label = Shader.labelText offset ∧ offset ∈ targets ∧ offset ∈ places ++ [place] := by
  rw [h.find?_eq_some, List.mem_append, List.mem_singleton]
  constructor
  · rintro ⟨hlabel, hmem, hplace⟩
    exact ⟨hlabel, hmem, .inl hplace⟩
  · rintro ⟨hlabel, hmem, hplace | rfl⟩
    · exact ⟨hlabel, hmem, hplace⟩
    · exact absurd hmem (hunmarked hlabel)

/-- At the end of the code so far, a label is put if a jump leads there. -/
theorem mark (hfresh : Operation.totalSize operations ∉ places) :
    Reads (Relisted shader targets operations places)
      (Shader.labelLine targets (Operation.totalSize operations))
      (Relisted shader targets operations (places ++ [Operation.totalSize operations])) := by
  unfold Shader.labelLine
  split
  next htarget =>
    rw [List.contains_iff_mem] at htarget
    refine Reads.label (isName_labelText _) fun draft hdraft => ⟨?_, ?_⟩
    · -- labels tell their offsets, so a label that stood before would be of a place before
      rw [NameMap.contains, Option.isSome_eq_false_iff, Option.isNone_iff_eq_none]
      refine Option.eq_none_iff_forall_ne_some.mpr fun offset hoffset => ?_
      obtain ⟨hlabel, -, hplace⟩ := (hdraft.find?_eq_some _ offset).mp hoffset
      exact hfresh (labelText_inj hlabel ▸ hplace)
    · refine { hdraft with find?_eq_some := fun label offset => ?_ }
      rw [NameMap.find?_insert, hdraft.size_code]
      split
      next hlabel =>
        subst hlabel
        rw [Option.some.injEq, List.mem_append, List.mem_singleton]
        constructor
        · rintro rfl
          exact ⟨rfl, htarget, .inr rfl⟩
        · rintro ⟨hoffset, -⟩
          exact labelText_inj hoffset
      next hlabel => exact hdraft.find?_unmarked (fun h => absurd h.symm hlabel) offset
  next htarget =>
    rw [List.contains_iff_mem] at htarget
    exact Reads.nil fun draft hdraft => { hdraft with
      find?_eq_some := fun label => hdraft.find?_unmarked fun _ => htarget }

/-- The line of an operation adds it. -/
theorem operation {operation : Operation Nat}
    (hdeclared : Declared shader.name shader.constants shader.symbols)
    (hvalid : operation.IsValid shader.constants.size shader.symbols.size) :
    Reads (Relisted shader targets operations places) [operation.line shader.symbols]
      (Relisted shader targets (operations ++ [operation]) places) := by
  refine Reads.operation hvalid (fun symbol hsymbol => (hdeclared.isDeclared symbol hsymbol).isName)
    hdeclared.distinct fun draft number hdraft => ⟨by rw [hdraft.constants_eq], hdraft.symbols_eq, ?_⟩
  obtain ⟨drafted, hcode, hdrafted⟩ := hdraft.exists_drafted
  refine { hdraft with exists_drafted := ?_, temporaries_eq := ?_ }
  · refine ⟨drafted ++ [operation.map fun target => (Shader.labelText target, number)], ?_, ?_⟩
    · simp [hcode]
    · rw [List.map_append, List.map_append, hdrafted, List.map_singleton, List.map_singleton,
        Operation.map_map]
      rfl
  · show (operation.addresses.map Address.temporariesFor).foldl max draft.temporaries = _
    rw [hdraft.temporaries_eq]
    simp [Operation.temporaries]

/-- The labels lead where the jumps did. -/
theorem finish (hmade : shader.IsMadeOf operations)
    (hplaces : ∀ offset, Operation.IsBoundary operations offset → offset ∈ places)
    (h : Relisted shader (operations.filterMap Operation.target?) operations places draft) :
    draft.finish = .ok shader := by
  obtain ⟨drafted, hcode, hdrafted⟩ := h.exists_drafted
  have hfind : ∀ operation ∈ operations, ∀ target, operation.target? = some target →
      draft.labels.find? (Shader.labelText target) = some target := fun operation hmem target htarget =>
    (h.find?_eq_some _ target).mpr ⟨rfl, List.mem_filterMap.mpr ⟨operation, hmem, htarget⟩,
      hplaces target (hmade.isBoundary operation hmem target htarget)⟩
  have hlabels : ∀ operation ∈ drafted, ∀ target, operation.target? = some target →
      (draft.labels.find? target.1).isSome = true := by
    intro operation hmem target htarget
    have hmem' : operation.map Prod.fst ∈ operations.map (Operation.map Shader.labelText) :=
      hdrafted ▸ List.mem_map_of_mem hmem
    obtain ⟨listed, hlisted, hsame⟩ := List.mem_map.mp hmem'
    have htargets : listed.target?.map Shader.labelText = some target.1 := by
      rw [← Operation.target?_map, hsame, Operation.target?_map, htarget, Option.map_some]
    obtain ⟨offset, hoffset, hlabel⟩ := Option.map_eq_some_iff.mp htargets
    rw [← hlabel, hfind listed hlisted offset hoffset, Option.isSome_some]
  have hoperations : drafted.map (Operation.map draft.offsetOf) = operations := by
    -- an offset is found by the label alone, whatever line the jump stands on
    have hlookup : draft.offsetOf = (fun label => (draft.labels.find? label).getD 0) ∘ Prod.fst := rfl
    calc drafted.map (Operation.map draft.offsetOf)
        = (drafted.map (Operation.map Prod.fst)).map
            (Operation.map fun label => (draft.labels.find? label).getD 0) := by
          rw [List.map_map, hlookup]
          exact List.map_congr_left fun operation _ => (Operation.map_map _ _ operation).symm
      _ = operations.map (Operation.map fun target =>
            (draft.labels.find? (Shader.labelText target)).getD 0) := by
          rw [hdrafted, List.map_map]
          exact List.map_congr_left fun operation _ => Operation.map_map _ _ operation
      _ = operations.map id := List.map_congr_left fun operation hmem =>
          Operation.map_eq_self fun target htarget => by
            rw [hfind operation hmem target htarget, Option.getD_some]
      _ = operations := List.map_id operations
  refine Draft.finish_eq_ok.mpr ⟨shader.code.toList, ?_, ?_⟩
  · rw [hcode, hmade.code_eq]
    refine Draft.mapM_resolve_eq_ok.mpr ⟨hlabels, ?_⟩
    rw [hoperations]
  · rw [h.kind_eq, h.name_eq, h.symbols_eq, h.constants_eq, h.temporaries_eq, ← hmade.temporaries_eq,
      Array.toArray_toList]

end Relisted

/-! ### Whole listings -/

/-- Every number of the constants and defaults of a shader is finite. -/
structure Shader.IsFinite (shader : Shader) : Prop where
  constants : ∀ value ∈ shader.constants, ∀ x ∈ value.floats, x.isFinite = true
  defaults : ∀ symbol ∈ shader.symbols.symbols, ∀ value, symbol.default = some value →
    ∀ x ∈ value.floats, x.isFinite = true

namespace Reads

variable {shader : Shader} {operations : List (Operation Nat)}

/-- The directives of a listing declare what the shader does. -/
theorem declarations (hdeclared : Declared shader.name shader.constants shader.symbols)
    (hfinite : shader.IsFinite) :
    Reads (· = Draft.new)
      (shader.titleLine :: shader.symbols.symbols.toList.map Symbol.line ++
        shader.constants.toList.map Value.line)
      (· = { Draft.new with
        kind := shader.kind
        name := shader.name
        symbols := shader.symbols
        constants := shader.constants }) := by
  have htitle : Reads (· = Draft.new) [shader.titleLine]
      (· = { Draft.new with kind := shader.kind, name := shader.name }) := title hdeclared.isName
  have hsymbols := @map _ Symbol.line (fun symbols draft => draft = { Draft.new with
      kind := shader.kind
      name := shader.name
      symbols := ⟨symbols.toArray⟩ }) shader.symbols.symbols.toList fun before entry after hsplit => by
    have hmem : entry ∈ shader.symbols.symbols := by
      rw [← Array.mem_toList_iff, hsplit]
      simp
    -- had the name been declared before, the names of the shader would not be distinct
    have hdistinct := hdeclared.distinct
    rw [hsplit, List.map_append, List.map_cons, List.nodup_append] at hdistinct
    have hnew : entry.name ∉ before.map Symbol.name := fun htaken =>
      hdistinct.2.2 _ htaken _ List.mem_cons_self rfl
    rw [← List.push_toArray]
    exact symbol (hdeclared.isDeclared entry hmem) (hfinite.defaults entry hmem) hnew
  have hconstants := @map _ Value.line (fun constants draft => draft = { Draft.new with
      kind := shader.kind
      name := shader.name
      symbols := shader.symbols
      constants := constants.toArray }) shader.constants.toList fun before entry after hsplit => by
    have hmem : entry ∈ shader.constants := by
      rw [← Array.mem_toList_iff, hsplit]
      simp
    rw [← List.push_toArray]
    exact constant (hdeclared.isLiteral entry hmem) (hfinite.constants entry hmem)
  exact (htitle.append hsymbols).append hconstants

/-- The lines of code give the operations back, with a label at each target. -/
theorem codeLines (hmade : shader.IsMadeOf operations)
    (hdeclared : Declared shader.name shader.constants shader.symbols) :
    Reads (Relisted shader (operations.filterMap Operation.target?) [] [])
      (shader.codeLines operations) fun draft => draft.finish = .ok shader := by
  -- the operations up to a place have been read, and a label may stand wherever one of them begins
  have hoperations := @flatMap _
    (fun place => Shader.labelLine (operations.filterMap Operation.target?) place.1 ++
      [place.2.line shader.symbols])
    (fun before => Relisted shader (operations.filterMap Operation.target?)
      (before.map Prod.snd) (before.map Prod.fst))
    (Operation.located 0 operations) fun before place after hsplit => by
    obtain ⟨ip, operation⟩ := place
    obtain ⟨hip, hlt⟩ := Operation.located_split hsplit
    rw [Nat.zero_add] at hip
    subst hip
    have hmem : operation ∈ operations := by
      rw [← @Operation.map_snd_located 0 operations, hsplit]
      simp
    rw [List.map_append, List.map_append, List.map_singleton, List.map_singleton]
    exact (Relisted.mark fun hplace => Nat.lt_irrefl _ (hlt _ hplace)).append
      (Relisted.operation hdeclared (hmade.isValid operation hmem))
  rw [Operation.map_snd_located] at hoperations
  -- jumps may lead to the very end of the code, where no operation begins
  have hmark := @Relisted.mark shader (operations.filterMap Operation.target?)
    ((Operation.located 0 operations).map Prod.fst) operations fun hplace =>
      Nat.lt_irrefl _ (Operation.lt_totalSize_of_mem hplace)
  refine hoperations.append (hmark.mono fun draft hdraft => ?_)
  exact hdraft.finish hmade fun offset hoffset => hoffset.mem_places

end Reads

/-- **Round trip.**  A shader that was assembled, with code of less than 2^32 words and finite numbers
    only, has a listing, and assembling the listing gives the shader back. -/
theorem listing_reassembles {text : String} {shader : Shader} (h : assemble text = .ok shader)
    (hsize : shader.code.size < 4294967296) (hfinite : shader.IsFinite) :
    ∃ listing, shader.listing = .ok listing ∧ assemble listing = .ok shader := by
  obtain ⟨operations, hmade⟩ := assemble_isMadeOf h
  have hdeclared := assemble_declared h
  refine ⟨_, hmade.listing_eq hdeclared hsize, assemble_of_reads ?_⟩
  have hcode := Reads.codeLines hmade hdeclared
  refine (Reads.declarations hdeclared hfinite).append (hcode.weaken ?_)
  rintro draft rfl
  exact ⟨rfl, rfl, rfl, rfl, ⟨[], rfl, rfl⟩, by simp [Draft.new, NameMap.empty, NameMap.find?,
    NameMap.findIn], rfl⟩

theorem isFinite_grey : grey.IsFinite := by
  have hhalf : Float32.isFinite 0.5 = true := by decide +kernel
  constructor
  · simp [grey, Value.uniformString, Value.zeros, ElementType.components]
  · simp [grey, Value.uniformFloat, hhalf]

theorem listing_reassembles_grey : grey.IsFinite ∧
    ∃ listing, grey.listing = .ok listing ∧ assemble listing = .ok grey :=
  ⟨isFinite_grey, listing_reassembles assemble_greyText (by decide) isFinite_grey⟩

end Shading
