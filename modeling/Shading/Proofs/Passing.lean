import Shading.Proofs.Steps

namespace Shading

/-!
# Passing arguments

A call moves its arguments out of their registers and back again.  Seen from outside it only fetches
values from the registers, and then either puts the result away or writes the arguments back.

* `Registers.set`, `Registers.without` — registers with another value somewhere, and with some emptied;
* `Machine.argument`, `Machine.restore` — what a call passes for an address, and what it writes back;
* `Machine.passing_eq` — the arguments that were moved leave their registers empty;
* `Machine.putBack_without` — putting back undoes the moves;
* `Machine.call_eq` — a call, without the moves.
-/

/-! ### Registers as a whole -/

namespace Registers

variable {registers : Registers} {address other : Address} {value new : Value}

/-- The registers with another value at an address.  Constants are no registers. -/
def set (registers : Registers) (address : Address) (value : Value) : Registers :=
  match address with
  | .constant _ => registers
  | .symbol slot => { registers with symbols := registers.symbols.setIfInBounds slot value }
  | .temporary slot =>
    { registers with temporaries := registers.temporaries.setIfInBounds slot value }

/-- A value can be put wherever one can be taken from. -/
theorem put_eq : registers.put address value
    = (fun _ => registers.set address value) <$> registers.target address := by
  cases address with
  | constant slot => rfl
  | symbol slot =>
    show (store registers.symbols slot value >>= fun symbols => _) = _
    by_cases hslot : slot < registers.symbols.size <;>
      simp [store, target, fetch, set, hslot, Array.setIfInBounds]
  | temporary slot =>
    show (store registers.temporaries slot value >>= fun temporaries => _) = _
    by_cases hslot : slot < registers.temporaries.size <;>
      simp [store, target, fetch, set, hslot, Array.setIfInBounds]

theorem take_eq : registers.take address
    = (fun value => (value, registers.set address Value.empty)) <$> registers.target address := by
  rw [take, put_eq]
  cases registers.target address <;> rfl

theorem target_set_self : (registers.set address new).target address
    = (fun _ => new) <$> registers.target address := by
  cases address with
  | constant slot => rfl
  | symbol slot =>
    by_cases hslot : slot < registers.symbols.size <;> simp [target, fetch, set, hslot]
  | temporary slot =>
    by_cases hslot : slot < registers.temporaries.size <;> simp [target, fetch, set, hslot]

theorem target_set_of_ne (h : other ≠ address) :
    (registers.set address new).target other = registers.target other := by
  cases address <;> cases other <;> try rfl
  all_goals
    refine fetch_congr (Array.getElem?_setIfInBounds_ne ?_)
    rintro rfl
    exact h rfl

/-- Constants are read from elsewhere, all else from the registers. -/
theorem read_eq {constants : Array Value} : registers.read constants address =
    match address with
    | .constant slot => fetch constants slot
    | _ => registers.target address := by
  cases address <;> rfl

theorem read_eq_target {constants : Array Value} (h : address.isConstant = false) :
    registers.read constants address = registers.target address := by
  cases address with
  | constant slot => cases h
  | symbol slot => rfl
  | temporary slot => rfl

theorem read_set_of_ne {constants : Array Value} (h : other ≠ address) :
    (registers.set address new).read constants other = registers.read constants other := by
  rw [read_eq, read_eq, target_set_of_ne h]

theorem set_set : (registers.set address value).set address new = registers.set address new := by
  cases address <;> simp [set]

theorem set_comm (h : address ≠ other) :
    (registers.set address value).set other new = (registers.set other new).set address value := by
  cases address <;> cases other <;> try rfl
  all_goals
    have hslot : _ ≠ _ := fun hslot => h (congrArg _ hslot)
    simp only [set, Array.setIfInBounds_comm _ _ hslot]

/-- Putting a value where it is already changes nothing. -/
theorem set_target (h : registers.target address = .ok value) :
    registers.set address value = registers := by
  have hsame : ∀ {values : Array Value} {slot : Nat}, fetch values slot = .ok value →
      values.setIfInBounds slot value = values := by
    intro values slot hvalue
    apply Array.ext_getElem?
    intro k
    rw [Array.getElem?_setIfInBounds]
    by_cases hk : slot = k
    · subst hk
      have hvalue := fetch_eq_ok.mp hvalue
      rw [if_pos rfl, if_pos (Array.getElem?_eq_some_iff.mp hvalue).1, hvalue]
    · rw [if_neg hk]
  cases address with
  | constant slot => rfl
  | symbol slot =>
    show { registers with symbols := _ } = registers
    rw [hsame h]
  | temporary slot =>
    show { registers with temporaries := _ } = registers
    rw [hsame h]

/-- Putting values where they are already changes nothing. -/
theorem foldl_set_target (entries : List (Address × Nat)) (value : Nat → Value)
    (h : ∀ entry ∈ entries, registers.target entry.1 = .ok (value entry.2)) :
    entries.foldl (fun registers entry => registers.set entry.1 (value entry.2)) registers
      = registers := by
  induction entries with
  | nil => rfl
  | cons entry entries ih =>
    obtain ⟨hentry, hentries⟩ := List.forall_mem_cons.mp h
    rw [List.foldl_cons, set_target hentry, ih hentries]

theorem target_foldl_set_of_not_mem (entries : List (Address × Nat)) (value : Nat → Value)
    (h : address ∉ entries.map Prod.fst) :
    (entries.foldl (fun registers entry => registers.set entry.1 (value entry.2))
      registers).target address = registers.target address := by
  induction entries generalizing registers with
  | nil => rfl
  | cons entry entries ih =>
    rw [List.map_cons, List.mem_cons, not_or] at h
    rw [List.foldl_cons, ih h.2, target_set_of_ne h.1]

/-- Values put at different addresses are all there in the end. -/
theorem target_foldl_set_of_mem (entries : List (Address × Nat)) (value : Nat → Value) {n : Nat}
    {old : Value} (hdistinct : entries.Pairwise (·.1 ≠ ·.1)) (hmem : (address, n) ∈ entries)
    (htarget : registers.target address = .ok old) :
    (entries.foldl (fun registers entry => registers.set entry.1 (value entry.2))
      registers).target address = .ok (value n) := by
  induction entries generalizing registers with
  | nil => cases hmem
  | cons entry entries ih =>
    obtain ⟨hne, hdistinct⟩ := List.pairwise_cons.mp hdistinct
    rw [List.foldl_cons]
    rcases List.mem_cons.mp hmem with rfl | hmem
    · have hnot : address ∉ entries.map Prod.fst := by
        intro h
        obtain ⟨entry, hentry, heq⟩ := List.mem_map.mp h
        exact hne entry hentry heq.symm
      rw [target_foldl_set_of_not_mem entries value hnot, target_set_self, htarget]
      rfl
    · have hother : address ≠ entry.1 := fun heq => hne (address, n) hmem heq.symm
      exact ih hdistinct hmem ((target_set_of_ne hother).trans htarget)

/-- The registers with those at the given addresses emptied. -/
def without (registers : Registers) (gone : List Address) : Registers :=
  gone.foldr (fun address registers => registers.set address Value.empty) registers

variable {gone : List Address}

theorem target_without (h : address ∉ gone) :
    (registers.without gone).target address = registers.target address := by
  induction gone with
  | nil => rfl
  | cons first gone ih =>
    rw [List.mem_cons, not_or] at h
    show ((registers.without gone).set first Value.empty).target address = _
    rw [target_set_of_ne h.1, ih h.2]

theorem target_without_of_mem (h : address ∈ gone) (hvalue : registers.target address = .ok value) :
    (registers.without gone).target address = .ok Value.empty := by
  induction gone with
  | nil => cases h
  | cons first gone ih =>
    show ((registers.without gone).set first Value.empty).target address = _
    by_cases hfirst : address = first
    · subst hfirst
      rw [target_set_self]
      by_cases hmem : address ∈ gone
      · rw [ih hmem]
        rfl
      · rw [target_without hmem, hvalue]
        rfl
    · have hmem : address ∈ gone := (List.mem_cons.mp h).resolve_left hfirst
      rw [target_set_of_ne hfirst, ih hmem]

theorem read_without {constants : Array Value} (h : address ∉ gone) :
    (registers.without gone).read constants address = registers.read constants address := by
  rw [read_eq, read_eq, target_without h]

theorem set_without (h : address ∉ gone) :
    (registers.without gone).set address value = (registers.set address value).without gone := by
  induction gone with
  | nil => rfl
  | cons first gone ih =>
    rw [List.mem_cons, not_or] at h
    show ((registers.without gone).set first Value.empty).set address value
      = ((registers.set address value).without gone).set first Value.empty
    rw [set_comm (Ne.symm h.1), ih h.2]

theorem put_set (h : other ≠ address) : (registers.set address new).put other value
    = (fun registers => registers.set address new) <$> registers.put other value := by
  rw [put_eq, put_eq, target_set_of_ne h, set_comm (Ne.symm h)]
  cases registers.target other <;> rfl

/-- A result is put away without regard to other registers. -/
theorem commit_set {masks : MaskStack} {points : Nat} (h : other ≠ address) :
    (registers.set address new).commit masks points other value
      = (fun registers => registers.set address new) <$>
          registers.commit masks points other value := by
  cases other with
  | constant slot => rfl
  | temporary slot => exact put_set h
  | symbol slot =>
    unfold commit
    rw [target_set_of_ne h]
    rcases registers.target (.symbol slot) with fault | target
    · rfl
    show (if target.isEmpty then _ else _) = _ <$> (if target.isEmpty then _ else _)
    simp only [put_set h]
    by_cases hempty : target.isEmpty = true
    · rw [if_pos hempty, if_pos hempty]
    rw [if_neg hempty, if_neg hempty]
    by_cases huniform : target.isUniform = true
    · rw [if_pos huniform, if_pos huniform]
      by_cases hvalue : value.isUniform = true <;> simp only [hvalue] <;> rfl
    rw [if_neg huniform, if_neg huniform]
    by_cases hcomponents : target.components = value.components
    · by_cases hvalue : value.isUniform = true <;> simp [hcomponents, hvalue]
    · rw [if_pos hcomponents, if_pos hcomponents]
      rfl

/-- A result changes no other register than the one it is for. -/
theorem exists_set_of_commit {masks : MaskStack} {points : Nat} {next : Registers}
    (h : registers.commit masks points address value = .ok next) :
    ∃ taken, next = registers.set address taken := by
  cases address with
  | constant slot => exact (commit_constant.mp h).elim
  | temporary slot => exact ⟨value, (commit_temporary.mp h).2⟩
  | symbol slot =>
    obtain ⟨target, taken, -, -, rfl⟩ := commit_symbol_eq_ok.mp h
    exact ⟨taken, rfl⟩

theorem claim_without (h : address ∉ gone) :
    (registers.without gone).claim address = registers.claim address := by
  cases address with
  | constant slot => rfl
  | symbol slot => rfl
  | temporary slot => exact target_without h

theorem commit_without {masks : MaskStack} {points : Nat} (h : address ∉ gone) :
    (registers.without gone).commit masks points address value
      = (fun registers => registers.without gone) <$>
          registers.commit masks points address value := by
  induction gone with
  | nil => exact (id_map _).symm
  | cons first gone ih =>
    rw [List.mem_cons, not_or] at h
    show ((registers.without gone).set first Value.empty).commit masks points address value = _
    rw [commit_set h.1, ih h.2]
    exact (comp_map _ _ _).symm

end Registers

/-! ### Moving arguments out -/

namespace Machine

variable {σ : Type} {constants : Array Value} {machine next : Machine σ} {function : Builtin}
  {result : Address} {addresses : List Address}

/-- The argument at place `n` is moved out of its register. -/
def isMoved (function : Builtin) (result : Address) (addresses : List Address)
    (entry : Address × Nat) : Bool :=
  !(isCopied function result entry.1 || (addresses.take entry.2).contains entry.1)

/-- What a call passes for the address at place `n`.  An argument is moved out of its register, so
    that the same address later in the list finds the register empty. -/
def argument (constants : Array Value) (machine : Machine σ) (function : Builtin) (result : Address)
    (addresses : List Address) (n : Nat) (address : Address) : Except Fault Value :=
  if isCopied function result address then
    machine.registers.read constants address
  else if (addresses.take n).contains address then
    .ok Value.empty
  else
    machine.registers.read constants address

/-- Writes the arguments that were moved out of their registers as the function left them. -/
def restore (machine : Machine σ) (function : Builtin) (result : Address) (addresses : List Address)
    (values : Array Value) : Except Fault Registers :=
  addresses.zipIdx.foldlM (fun registers (address, n) => do
    if isCopied function result address || (addresses.take n).contains address then
      return registers
    else
      registers.put address (← fetch values n)) machine.registers

variable {passing : Passing} {address : Address} {n : Nat}

theorem isConstant_of_not_isCopied (h : isCopied function result address = false) :
    address.isConstant = false := by
  rw [isCopied, Bool.or_eq_false_iff] at h
  exact h.1

theorem pass_copy (h : isMoved function result addresses (address, n) = false) :
    pass constants function result addresses passing address n
      = (fun value => { passing with values := passing.values.push value }) <$>
          passing.registers.read constants address := by
  rw [isMoved, Bool.not_eq_false'] at h
  rw [pass, if_pos h]
  rfl

theorem pass_move (h : isMoved function result addresses (address, n) = true) :
    pass constants function result addresses passing address n
      = (fun value => ⟨passing.registers.set address Value.empty, passing.values.push value,
          n :: passing.moved⟩) <$> passing.registers.target address := by
  rw [isMoved, Bool.not_eq_true', ← Bool.not_eq_true] at h
  rw [pass, if_neg h, Registers.take_eq]
  cases passing.registers.target address <;> rfl

theorem isMoved_eq_true {done : List Address} (htake : addresses.take n = done) :
    isMoved function result addresses (address, n) = true ↔
      isCopied function result address = false ∧ address ∉ done := by
  simp [isMoved, htake]

theorem isMoved_eq_false {done : List Address} (htake : addresses.take n = done) :
    isMoved function result addresses (address, n) = false ↔
      isCopied function result address = true ∨ address ∈ done := by
  rw [isMoved, htake, Bool.not_eq_false', Bool.or_eq_true, List.contains_iff_mem]

theorem argument_of_isMoved (h : isMoved function result addresses (address, n) = true) :
    machine.argument constants function result addresses n address
      = machine.registers.target address := by
  obtain ⟨hcopied, hdone⟩ := (isMoved_eq_true rfl).mp h
  rw [argument, if_neg (by simp [hcopied]), if_neg (by simpa using hdone),
    Registers.read_eq_target (isConstant_of_not_isCopied hcopied)]

/-- The registers that are empty once the arguments at some addresses have been passed. -/
structure Gone (machine : Machine σ) (function : Builtin) (result : Address)
    (done gone : List Address) : Prop where
  mem_iff : ∀ address, address ∈ gone ↔ address ∈ done ∧ isCopied function result address = false
  target : ∀ address ∈ gone, ∃ value, machine.registers.target address = .ok value

namespace Gone

variable {done gone : List Address} {value : Value}

theorem nil : machine.Gone function result [] [] :=
  ⟨by simp, by simp⟩

theorem move (h : machine.Gone function result done gone)
    (hcopied : isCopied function result address = false)
    (hvalue : machine.registers.target address = .ok value) :
    machine.Gone function result (done ++ [address]) (address :: gone) := by
  refine ⟨fun other => ?_, List.forall_mem_cons.mpr ⟨⟨value, hvalue⟩, h.target⟩⟩
  rw [List.mem_cons, h.mem_iff other, List.mem_append, List.mem_singleton]
  constructor
  · rintro (rfl | hother)
    · exact ⟨.inr rfl, hcopied⟩
    · exact ⟨.inl hother.1, hother.2⟩
  · rintro ⟨hother | rfl, hcopied⟩
    · exact .inr ⟨hother, hcopied⟩
    · exact .inl rfl

theorem copy (h : machine.Gone function result done gone)
    (hcopied : isCopied function result address = true ∨ address ∈ done) :
    machine.Gone function result (done ++ [address]) gone := by
  refine ⟨fun other => ?_, h.target⟩
  rw [h.mem_iff other, List.mem_append, List.mem_singleton]
  constructor
  · exact fun hother => ⟨.inl hother.1, hother.2⟩
  · rintro ⟨hother | rfl, hnot⟩
    · exact ⟨hother, hnot⟩
    · exact ⟨hcopied.resolve_left (by simp [hnot]), hnot⟩

/-- An argument that is not moved is read: from its register as it was, or from one that has been
    emptied since. -/
theorem read_eq (h : machine.Gone function result done gone) (htake : addresses.take n = done)
    (hcopied : isCopied function result address = true ∨ address ∈ done) :
    (machine.registers.without gone).read constants address
      = machine.argument constants function result addresses n address := by
  by_cases hcopy : isCopied function result address = true
  · have hmem : address ∉ gone := by
      intro hmem
      simp [((h.mem_iff address).mp hmem).2] at hcopy
    rw [argument, if_pos hcopy, Registers.read_without hmem]
  · have hdone : address ∈ done := hcopied.resolve_left hcopy
    have hcopy : isCopied function result address = false := by simpa using hcopy
    have hmem : address ∈ gone := (h.mem_iff address).mpr ⟨hdone, hcopy⟩
    obtain ⟨value, hvalue⟩ := h.target address hmem
    rw [argument, if_neg (by simp [hcopy]), htake, if_pos (by simpa using hdone),
      Registers.read_eq_target (isConstant_of_not_isCopied hcopy),
      Registers.target_without_of_mem hmem hvalue]

end Gone

/-- The arguments of a call are passed one after another, and those that are moved leave their registers
    empty. -/
theorem passing_eq (done rest : List Address) (haddresses : addresses = done ++ rest)
    (gone : List Address) (values : Array Value) (moved : List Nat)
    (hgone : machine.Gone function result done gone) :
    (rest.zipIdx done.length).foldlM (fun passing entry =>
        pass constants function result addresses passing entry.1 entry.2)
        ⟨machine.registers.without gone, values, moved⟩
      = (fun more =>
          let entries := (rest.zipIdx done.length).filter (isMoved function result addresses)
          ⟨machine.registers.without (entries.reverse.map Prod.fst ++ gone), values ++ more.toArray,
            entries.reverse.map Prod.snd ++ moved⟩) <$>
        (rest.zipIdx done.length).mapM fun entry =>
          machine.argument constants function result addresses entry.2 entry.1 := by
  induction rest generalizing done gone values moved with
  | nil => simp
  | cons address rest ih =>
    have htake : addresses.take done.length = done := by
      rw [haddresses, List.take_left]
    have hnext : addresses = (done ++ [address]) ++ rest := by
      rw [haddresses, List.append_assoc]
      rfl
    have ih := ih (done ++ [address]) hnext
    rw [List.length_append, List.length_singleton] at ih
    rw [List.zipIdx_cons, List.foldlM_cons, List.mapM_cons, map_bind]
    by_cases hmoved : isMoved function result addresses (address, done.length) = true
    · -- the argument was not passed before, so its register is as it was
      obtain ⟨hcopied, hdone⟩ := (isMoved_eq_true htake).mp hmoved
      have hmem : address ∉ gone := fun h => hdone ((hgone.mem_iff address).mp h).1
      rw [pass_move hmoved, Registers.target_without hmem, argument_of_isMoved hmoved, bind_map_left]
      rcases hvalue : machine.registers.target address with fault | value
      · rfl
      · refine Eq.trans (ih (address :: gone) (values.push value) (done.length :: moved)
          (hgone.move hcopied hvalue)) ?_
        rw [List.filter_cons_of_pos hmoved]
        show _ = _ <$> (_ >>= fun more => pure (value :: more))
        rw [bind_pure_comp, ← comp_map]
        refine congrArg (· <$> _) (funext fun more => ?_)
        simp
    · rw [Bool.not_eq_true] at hmoved
      have hcopied := (isMoved_eq_false htake).mp hmoved
      rw [pass_copy hmoved, hgone.read_eq htake hcopied, bind_map_left]
      rcases machine.argument constants function result addresses done.length address
        with fault | value
      · rfl
      · refine Eq.trans (ih gone (values.push value) moved (hgone.copy hcopied)) ?_
        rw [List.filter_cons_of_neg (by simp [hmoved])]
        show _ = _ <$> (_ >>= fun more => pure (value :: more))
        rw [bind_pure_comp, ← comp_map]
        refine congrArg (· <$> _) (funext fun more => ?_)
        simp

/-- The arguments that are moved, with their places. -/
def movedEntries (function : Builtin) (result : Address) (addresses : List Address) :
    List (Address × Nat) :=
  addresses.zipIdx.filter (isMoved function result addresses)

theorem mem_movedEntries : (address, n) ∈ movedEntries function result addresses ↔
    addresses[n]? = some address ∧ isCopied function result address = false ∧
      address ∉ addresses.take n := by
  rw [movedEntries, List.mem_filter, List.mk_mem_zipIdx_iff_getElem?]
  simp [isMoved]

/-- An address stands in the list for a first time. -/
theorem exists_first (h : addresses[n]? = some address) :
    ∃ m ≤ n, addresses[m]? = some address ∧ address ∉ addresses.take m := by
  induction n using Nat.strong_induction_on with
  | _ n ih =>
    by_cases hbefore : address ∈ addresses.take n
    · obtain ⟨m, hm⟩ := List.mem_iff_getElem?.mp hbefore
      rw [List.getElem?_take] at hm
      split at hm
      next hlt =>
        obtain ⟨k, hk, hfirst⟩ := ih m hlt hm
        exact ⟨k, by omega, hfirst⟩
      next => cases hm
    · exact ⟨n, le_rfl, h, hbefore⟩

theorem pairwise_place : (movedEntries function result addresses).Pairwise (·.2 < ·.2) := by
  refine List.Pairwise.filter _ (List.pairwise_map.mp ?_)
  rw [List.zipIdx_map_snd]
  exact List.pairwise_lt_range'

/-- No register is moved from twice. -/
theorem pairwise_address : (movedEntries function result addresses).Pairwise (·.1 ≠ ·.1) := by
  refine pairwise_place.imp_of_mem ?_
  rintro ⟨first, i⟩ ⟨second, j⟩ hfirst hsecond hlt heq
  have hfirst := (mem_movedEntries.mp hfirst).1
  have hsecond := (mem_movedEntries.mp hsecond).2.2
  refine hsecond (List.mem_of_getElem? (i := i) ?_)
  rw [List.getElem?_take_of_lt hlt, hfirst]
  exact congrArg some heq

/-- What the arguments of a call leave behind. -/
theorem passed_eq : addresses.zipIdx.foldlM (fun passing (address, n) =>
      pass constants function result addresses passing address n) ⟨machine.registers, #[], []⟩
    = (fun arguments =>
        ⟨machine.registers.without ((movedEntries function result addresses).reverse.map Prod.fst),
          arguments.toArray, (movedEntries function result addresses).reverse.map Prod.snd⟩) <$>
      addresses.zipIdx.mapM fun (address, n) =>
        machine.argument constants function result addresses n address := by
  refine Eq.trans (passing_eq [] addresses rfl [] #[] [] .nil) ?_
  refine congrArg (· <$> _) (funext fun arguments => ?_)
  simp [movedEntries]

/-- The register for the result stays where it is. -/
theorem ne_result_of_moved (hvoid : function.isVoid = false) {entry : Address × Nat}
    (h : entry ∈ movedEntries function result addresses) : entry.1 ≠ result := by
  rintro rfl
  have hcopied := (mem_movedEntries.mp h).2.1
  simp [isCopied, hvoid] at hcopied

theorem result_not_moved (hvoid : function.isVoid = false) :
    result ∉ (movedEntries function result addresses).reverse.map Prod.fst := by
  intro h
  obtain ⟨entry, hentry, heq⟩ := List.mem_map.mp h
  exact ne_result_of_moved hvoid (List.mem_reverse.mp hentry) heq

/-! ### Moving arguments back -/

/-- **Putting back.**  What was moved out is put back in the opposite order, so each argument is at the
    end of the values when its turn comes. -/
theorem putBack_without (entries : List (Address × Nat)) (value : Nat → Value) {values : Array Value}
    {registers : Registers} (haddress : ∀ entry ∈ entries, addresses[entry.2]? = some entry.1)
    (hvalue : ∀ entry ∈ entries, values[entry.2]? = some (value entry.2))
    (hplace : entries.Pairwise (·.2 > ·.2)) (hdistinct : entries.Pairwise (·.1 ≠ ·.1))
    (htarget : ∀ entry ∈ entries, ∃ old, registers.target entry.1 = .ok old) :
    putBack addresses (entries.map Prod.snd) values (registers.without (entries.map Prod.fst))
      = .ok (entries.foldl (fun registers entry => registers.set entry.1 (value entry.2))
          registers) := by
  induction entries generalizing values registers with
  | nil => rfl
  | cons entry entries ih =>
    obtain ⟨address, n⟩ := entry
    obtain ⟨haddress, haddresses⟩ := List.forall_mem_cons.mp haddress
    obtain ⟨hvalue, hvalues⟩ := List.forall_mem_cons.mp hvalue
    obtain ⟨⟨old, htarget⟩, htargets⟩ := List.forall_mem_cons.mp htarget
    obtain ⟨hplace, hplaces⟩ := List.pairwise_cons.mp hplace
    obtain ⟨hne, hdistinct⟩ := List.pairwise_cons.mp hdistinct
    dsimp only at haddress hvalue htarget hplace hne
    have hlt := (Array.getElem?_eq_some_iff.mp hvalue).1
    -- what lies behind place `n` is cut off, so that its argument is the last
    have htaken : ∀ k ≤ n, (values.take (n + 1))[k]? = values[k]? := by
      intro k hk
      rw [Array.take_eq_extract, Array.getElem?_extract, if_pos (by omega), Nat.zero_add]
    have hsize : (values.take (n + 1)).size = n + 1 := by
      rw [Array.take_eq_extract, Array.size_extract]
      omega
    have hback : (values.take (n + 1)).back? = some (value n) := by
      rw [Array.back?_eq_getElem?, hsize, Nat.add_sub_cancel, htaken n le_rfl, hvalue]
    have hgone : address ∉ entries.map Prod.fst := by
      intro h
      obtain ⟨entry, hentry, rfl⟩ := List.mem_map.mp h
      exact hne entry hentry rfl
    have hput : (registers.without (address :: entries.map Prod.fst)).put address (value n)
        = .ok ((registers.set address (value n)).without (entries.map Prod.fst)) := by
      show ((registers.without (entries.map Prod.fst)).set address Value.empty).put address _ = _
      rw [Registers.put_eq, Registers.target_set_self, Registers.target_without hgone, htarget,
        Registers.set_set, Registers.set_without hgone]
      rfl
    rw [List.map_cons, List.map_cons, putBack, hback, haddress]
    dsimp only
    rw [hput]
    refine ih haddresses (fun entry hentry => ?_) hplaces hdistinct fun entry hentry => ?_
    · have hlt : entry.2 < n := hplace entry hentry
      rw [Array.getElem?_pop, if_pos (by omega), htaken _ (by omega)]
      exact hvalues entry hentry
    · rw [Registers.target_set_of_ne (Ne.symm (hne entry hentry))]
      exact htargets entry hentry

/-- Writing the arguments back in the order they stand in. -/
theorem restore_eq (value : Nat → Value) {values : Array Value}
    (hvalue : ∀ entry ∈ movedEntries function result addresses,
      values[entry.2]? = some (value entry.2))
    (htarget : ∀ entry ∈ movedEntries function result addresses,
      ∃ old, machine.registers.target entry.1 = .ok old) :
    machine.restore function result addresses values
      = .ok ((movedEntries function result addresses).foldl
          (fun registers entry => registers.set entry.1 (value entry.2)) machine.registers) := by
  rw [restore]
  unfold movedEntries at *
  -- the induction is over the entries, with registers that have been written already
  generalize machine.registers = registers at htarget ⊢
  generalize addresses.zipIdx = entries at hvalue htarget ⊢
  induction entries generalizing registers with
  | nil => rfl
  | cons entry entries ih =>
    obtain ⟨address, n⟩ := entry
    rw [List.foldlM_cons]
    by_cases hmoved : isMoved function result addresses (address, n) = true
    · rw [List.filter_cons_of_pos hmoved] at hvalue htarget ⊢
      obtain ⟨hvalue, hvalues⟩ := List.forall_mem_cons.mp hvalue
      obtain ⟨⟨old, htarget⟩, htargets⟩ := List.forall_mem_cons.mp htarget
      have hput : registers.put address (value n) = .ok (registers.set address (value n)) := by
        rw [Registers.put_eq, htarget]
        rfl
      rw [isMoved, Bool.not_eq_true', ← Bool.not_eq_true] at hmoved
      dsimp only at hmoved hvalue ⊢
      rw [if_neg hmoved, fetch_eq_ok.mpr hvalue]
      refine Eq.trans (congrArg (· >>= _) hput) (ih _ hvalues fun entry hentry => ?_)
      obtain ⟨old', htarget'⟩ := htargets entry hentry
      by_cases hsame : entry.1 = address
      · rw [hsame, Registers.target_set_self, htarget]
        exact ⟨value n, rfl⟩
      · rw [Registers.target_set_of_ne hsame]
        exact ⟨old', htarget'⟩
    · rw [List.filter_cons_of_neg hmoved] at hvalue htarget ⊢
      rw [isMoved, Bool.not_eq_true', Bool.not_eq_false] at hmoved
      dsimp only at hmoved ⊢
      rw [if_pos hmoved]
      exact ih _ hvalue htarget

/-- Only two builtins write their arguments. -/
theorem run_arguments {function : Builtin} {setting : Setting} {arguments values : Array Value}
    (h : function.run setting arguments = .ok (.arguments values)) :
    (∃ axis, function = .setComponent axis ∧ setting.setComponent arguments axis = .ok values) ∨
      function = .fresnel ∧ setting.fresnel arguments = .ok values := by
  cases function with
  | setComponent axis => exact .inl ⟨axis, rfl, by simpa [Builtin.run] using h⟩
  | fresnel => exact .inr ⟨rfl, by simpa [Builtin.run] using h⟩
  | _ => simp [Builtin.run] at h

theorem isVoid_of_result {setting : Setting} {arguments : Array Value} {value : Value}
    (h : function.run setting arguments = .ok (.result value)) : function.isVoid = false := by
  cases function with
  | setComponent axis => simp [Builtin.run] at h
  | fresnel => simp [Builtin.run] at h
  | _ => rfl

/-- A builtin that writes its arguments leaves as many as there were. -/
theorem size_of_arguments {setting : Setting} {arguments values : Array Value}
    (h : function.run setting arguments = .ok (.arguments values)) :
    values.size = arguments.size := by
  obtain ⟨axis, rfl, hrun⟩ | ⟨rfl, hrun⟩ := run_arguments h
  · obtain ⟨p, x, floats, -, -, -, -, -, rfl⟩ := Setting.setComponent_eq_ok.mp hrun
    simp
  · obtain ⟨_, _, _, _, _, kr, kt, floats, -, -, -, -, -, -, -, -, -, -, rfl⟩ :=
      Setting.fresnel_eq_ok.mp hrun
    simp

section Passed

variable {arguments : List Value}
  (harguments : addresses.zipIdx.mapM (fun (address, n) =>
    machine.argument constants function result addresses n address) = .ok arguments)

include harguments

/-- An argument that is moved is what its register held. -/
theorem target_of_moved {entry : Address × Nat}
    (h : entry ∈ movedEntries function result addresses) :
    ∃ value, arguments[entry.2]? = some value ∧ machine.registers.target entry.1 = .ok value := by
  obtain ⟨address, n⟩ := entry
  obtain ⟨haddress, hcopied, htaken⟩ := mem_movedEntries.mp h
  obtain ⟨value, hvalue, hargument⟩ := (mapM_eq_ok.mp harguments).2 n (address, n)
    (by simp [haddress])
  refine ⟨value, hvalue, ?_⟩
  dsimp only at hargument
  rwa [argument, if_neg (by simp [hcopied]), if_neg (by simpa using htaken),
    Registers.read_eq_target (isConstant_of_not_isCopied hcopied)] at hargument

theorem getElem?_of_moved {values : Array Value} (hsize : values.size = arguments.length)
    {entry : Address × Nat} (h : entry ∈ movedEntries function result addresses) :
    values[entry.2]? = some (values.getD entry.2 Value.empty) := by
  obtain ⟨value, hvalue, -⟩ := target_of_moved harguments h
  have hlt : entry.2 < values.size := hsize ▸ (List.getElem?_eq_some_iff.mp hvalue).1
  simp [hlt]

/-- Arguments that are written back as they stand in the list. -/
theorem restore_arguments {values : Array Value} (hsize : values.size = arguments.length) :
    machine.restore function result addresses values
      = .ok ((movedEntries function result addresses).foldl
          (fun registers entry => registers.set entry.1 (values.getD entry.2 Value.empty))
          machine.registers) := by
  refine restore_eq (fun n => values.getD n Value.empty)
    (fun entry => getElem?_of_moved harguments hsize) fun entry hentry => ?_
  obtain ⟨value, -, htarget⟩ := target_of_moved harguments hentry
  exact ⟨value, htarget⟩

/-- Values are put back as they would be written in order. -/
theorem putBack_arguments {values : Array Value} (hsize : values.size = arguments.length) :
    putBack addresses ((movedEntries function result addresses).reverse.map Prod.snd) values
        (machine.registers.without
          ((movedEntries function result addresses).reverse.map Prod.fst))
      = machine.restore function result addresses values := by
  rw [restore_arguments harguments hsize, putBack_without _ (fun n => values.getD n Value.empty)]
  · -- no register is written twice, so the order does not matter
    refine congrArg Except.ok (List.Perm.foldl_eq' (List.reverse_perm _) ?_ _)
    intro first hfirst second hsecond registers
    by_cases hsame : first = second
    · rw [hsame]
    · have : Std.Symm fun first second : Address × Nat => first.1 ≠ second.1 :=
        ⟨fun _ _ => Ne.symm⟩
      have hne : first.1 ≠ second.1 := pairwise_address.forall (List.mem_reverse.mp hfirst)
        (List.mem_reverse.mp hsecond) hsame
      exact Registers.set_comm hne
  · intro entry hentry
    exact (mem_movedEntries.mp (List.mem_reverse.mp hentry)).1
  · exact fun entry hentry => getElem?_of_moved harguments hsize (List.mem_reverse.mp hentry)
  · exact List.pairwise_reverse.mpr pairwise_place
  · exact List.pairwise_reverse.mpr (pairwise_address.imp Ne.symm)
  · intro entry hentry
    obtain ⟨value, -, htarget⟩ := target_of_moved harguments (List.mem_reverse.mp hentry)
    exact ⟨value, htarget⟩

/-- A function with a result leaves its arguments as they were. -/
theorem putBack_commit {value : Value} (hvoid : function.isVoid = false) :
    (do
      let registers ← (machine.registers.without
        ((movedEntries function result addresses).reverse.map Prod.fst)).commit machine.masks
          machine.points result value
      putBack addresses ((movedEntries function result addresses).reverse.map Prod.snd)
        arguments.toArray registers)
      = machine.registers.commit machine.masks machine.points result value := by
  have hmoved : ∀ entry ∈ (movedEntries function result addresses).reverse,
      entry.1 ≠ result ∧ ∃ value, arguments[entry.2]? = some value ∧
        machine.registers.target entry.1 = .ok value := by
    intro entry hentry
    have hentry := List.mem_reverse.mp hentry
    exact ⟨ne_result_of_moved hvoid hentry, target_of_moved harguments hentry⟩
  rw [Registers.commit_without (result_not_moved hvoid), bind_map_left]
  rcases hcommit : machine.registers.commit machine.masks machine.points result value
    with fault | registers
  · rfl
  obtain ⟨taken, rfl⟩ := Registers.exists_set_of_commit hcommit
  have htarget : ∀ entry ∈ (movedEntries function result addresses).reverse,
      (machine.registers.set result taken).target entry.1
        = .ok (arguments.getD entry.2 Value.empty) := by
    intro entry hentry
    obtain ⟨hne, value, hvalue, htarget⟩ := hmoved entry hentry
    rw [Registers.target_set_of_ne hne, htarget, List.getD_eq_getElem?_getD, hvalue]
    rfl
  refine Eq.trans (putBack_without _ (fun n => arguments.getD n Value.empty) ?_ ?_ ?_ ?_ ?_) ?_
  · intro entry hentry
    exact (mem_movedEntries.mp (List.mem_reverse.mp hentry)).1
  · intro entry hentry
    obtain ⟨-, value, hvalue, -⟩ := hmoved entry hentry
    rw [List.getElem?_toArray, List.getD_eq_getElem?_getD, hvalue]
    rfl
  · exact List.pairwise_reverse.mpr pairwise_place
  · exact List.pairwise_reverse.mpr (pairwise_address.imp Ne.symm)
  · exact fun entry hentry => ⟨_, htarget entry hentry⟩
  · exact congrArg Except.ok (Registers.foldl_set_target _
      (fun n => arguments.getD n Value.empty) htarget)

end Passed

/-- What becomes of the registers when a builtin has replied. -/
def replied (machine : Machine σ) (function : Builtin) (result : Address)
    (addresses : List Address) : Reply → Except Fault Registers
  | .result value => machine.registers.commit machine.masks machine.points result value
  | .arguments values => machine.restore function result addresses values

/-- **Moves.**  A call is what it would be if the arguments had stayed in their registers. -/
theorem call_eq (scene : Scene) (function : Builtin) (result : Address) (addresses : List Address) :
    machine.call constants scene function result addresses = do
      let arguments ← addresses.zipIdx.mapM fun (address, n) =>
        machine.argument constants function result addresses n address
      discard (if function.isVoid then .ok Value.empty else machine.registers.claim result)
      let mask ← machine.masks.active
      let reply ← function.run ⟨scene, machine.width, machine.height, mask⟩ arguments.toArray
      let registers ← machine.replied function result addresses reply
      return { machine with registers := registers } := by
  rw [call, passed_eq, bind_map_left]
  refine bind_congr_ok fun arguments harguments => ?_
  cases hvoid : function.isVoid with
  | true =>
    -- nothing is claimed, and what comes back are arguments
    show (machine.masks.active >>= _) = (machine.masks.active >>= _)
    refine bind_congr fun mask => bind_congr_ok fun reply hreply => ?_
    cases reply with
    | result value =>
      rw [isVoid_of_result hreply] at hvoid
      cases hvoid
    | arguments values =>
      exact congrArg (· >>= _) (putBack_arguments harguments (size_of_arguments hreply))
  | false =>
    show (discard (Registers.claim _ result) >>= _) = (discard (machine.registers.claim result) >>= _)
    rw [Registers.claim_without (result_not_moved hvoid)]
    refine bind_congr fun _ => bind_congr fun mask => bind_congr_ok fun reply hreply => ?_
    cases reply with
    | result value =>
      show _ = (machine.registers.commit machine.masks machine.points result value >>= _)
      rw [← putBack_commit harguments hvoid, bind_assoc]
    | arguments values =>
      exact congrArg (· >>= _) (putBack_arguments harguments (size_of_arguments hreply))

/-- **Calls.**  The arguments are fetched, the builtin is run, and its reply is put away. -/
theorem call_eq_ok {scene : Scene} {function : Builtin} {result : Address}
    {addresses : List Address} :
    machine.call constants scene function result addresses = .ok next ↔
      ∃ arguments mask reply registers,
        addresses.zipIdx.mapM (fun (address, n) =>
          machine.argument constants function result addresses n address) = .ok arguments ∧
        (function.isVoid = false → ∃ value, machine.registers.claim result = .ok value) ∧
        machine.masks.active = .ok mask ∧
        function.run ⟨scene, machine.width, machine.height, mask⟩ arguments.toArray = .ok reply ∧
        machine.replied function result addresses reply = .ok registers ∧
        next = { machine with registers := registers } := by
  rw [call_eq]
  simp only [bind_eq_ok, pure_eq_ok, discard_eq_ok]
  constructor
  · rintro ⟨arguments, harguments, _, ⟨value, hvalue⟩, mask, hmask, reply, hreply, registers,
      hregisters, rfl⟩
    refine ⟨arguments, mask, reply, registers, harguments, fun hvoid => ⟨value, ?_⟩, hmask, hreply,
      hregisters, rfl⟩
    simpa [hvoid] using hvalue
  · rintro ⟨arguments, mask, reply, registers, harguments, hclaim, hmask, hreply, hregisters, rfl⟩
    refine ⟨arguments, harguments, (), ?_, mask, hmask, reply, hreply, registers, hregisters, rfl⟩
    cases hvoid : function.isVoid with
    | true => exact ⟨_, rfl⟩
    | false => exact hclaim hvoid

theorem eq_of_call {scene : Scene} {function : Builtin} {result : Address}
    {addresses : List Address}
    (h : machine.call constants scene function result addresses = .ok next) :
    ∃ registers, next = { machine with registers := registers } := by
  obtain ⟨_, _, _, registers, -, -, -, -, -, rfl⟩ := call_eq_ok.mp h
  exact ⟨registers, rfl⟩

end Machine

end Shading
