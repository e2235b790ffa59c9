import Shading.Machine.Command
import Shading.Proofs.Loops

namespace Shading

/-!
# What instructions are decoded to

The opcode of an instruction settles what kind of command it is, and the words after it what the
operands are.  The instructions with a key have this in common that they do something with one or two
operands and write a register.

* `Action` — what an instruction with a key does, its addresses apart;
* `Command.Decoded` — the commands of all instructions, with the words that they come from;
* `Command.decode_eq_ok` — these and no others are decoded.
-/

/-! ### Actions -/

/-- How many operands an instruction with a key reads.  The word before theirs is that of the register
    it writes. -/
def Opcode.sourceCount : Opcode → Nat
  | .negate | .promote | .convert | .assign _ => 1
  | .transform | .arithmetic _ | .test _ => 2
  | _ => 0

/-- Updates are those of assignments. -/
theorem Update.opcode_of_ofInstruction? {instruction : Instruction} {update : Update}
    (h : ofInstruction? instruction = some update) :
    ∃ operator, instruction.opcode = .assign operator := by
  unfold ofInstruction? at h
  split at h
  next operator hopcode => exact ⟨operator, hopcode⟩
  next => cases h

/-- What an instruction with a key does with its operands, wherever they are. -/
inductive Action
  | compute (op : PointOp) (type : Option ElementType)
  | assign (update : Update)

namespace Action

variable {code : Array Word} {ip : Nat} {instruction : Instruction} {action : Action}

/-- The action of the instruction at `ip`. -/
inductive Of (code : Array Word) (ip : Nat) (instruction : Instruction) : Action → Prop
  | compute (op : PointOp) (hop : PointOp.ofInstruction? instruction = some op)
      (hopcode : instruction.opcode ≠ .convert) : Of code ip instruction (.compute op none)
  | convert (op : PointOp) (word : Word) (type : ElementType)
      (hop : PointOp.ofInstruction? instruction = some op)
      (hopcode : instruction.opcode = .convert) (hword : code[ip + 3]? = some word)
      (htype : Vocabulary.ofCode? word.toNat = some type) (hwidth : type.components = op.width) :
      Of code ip instruction (.compute op (some type))
  | assign (update : Update) (hupdate : Update.ofInstruction? instruction = some update) :
      Of code ip instruction (.assign update)

/-- Only a conversion has its action depend on a word after its own. -/
theorem Of.congr {code' : Array Word} {ip' : Nat} (h : Of code ip instruction action)
    (hword : instruction.opcode = .convert → code'[ip' + 3]? = code[ip + 3]?) :
    Of code' ip' instruction action := by
  cases h with
  | compute op hop hopcode => exact .compute op hop hopcode
  | convert op word type hop hopcode hword' htype hwidth =>
    exact .convert op word type hop hopcode ((hword hopcode).trans hword') htype hwidth
  | assign update hupdate => exact .assign update hupdate

end Action

/-! ### Words after an opcode -/

namespace Command

variable {code : Array Word} {ip : Nat} {instruction : Instruction} {command : Command}

theorem oneWithCode_eq_ok {α : Type} [Vocabulary α] {word : Word} {fault : Nat → Fault} {x : α} :
    oneWithCode word fault = .ok x ↔ Vocabulary.ofCode? word.toNat = some x := by
  unfold oneWithCode
  split <;> simp_all

theorem address_eq_ok {n : Nat} {operand : Address} :
    address code ip n = .ok operand ↔
      ∃ word, code[ip + n]? = some word ∧ Address.decode? word = some operand := by
  unfold address word
  simp only [bind_eq_ok, fetch_eq_ok]
  refine exists_congr fun word => and_congr_right fun _ => ?_
  cases Address.decode? word <;> simp

theorem pointOp_eq_ok {op : PointOp} :
    pointOp instruction = .ok op ↔ PointOp.ofInstruction? instruction = some op := by
  unfold pointOp
  split <;> simp_all

/-! ### Commands -/

/-- The command of the instruction at `ip`, and the words that it comes from. -/
inductive Decoded (code : Array Word) (ip : Nat) (instruction : Instruction) : Command → Prop
  | nothing (hopcode : instruction.opcode = .null) : Decoded code ip instruction .nothing
  | halt (hopcode : instruction.opcode = .halt) : Decoded code ip instruction .halt
  | discard (hopcode : instruction.opcode = .reset) : Decoded code ip instruction .discard
  | clearMask (hopcode : instruction.opcode = .clearMask) : Decoded code ip instruction .clearMask
  | generateMask {predicate : Address} (hopcode : instruction.opcode = .generateMask)
      (hpredicate : address code ip 1 = .ok predicate) :
      Decoded code ip instruction (.generateMask predicate)
  | invertMask (hopcode : instruction.opcode = .invertMask) : Decoded code ip instruction .invertMask
  | jump {condition : JumpCondition} (hopcode : instruction.opcode = .jump condition) :
      Decoded code ip instruction (.jump condition (code[ip + 1]?.map UInt32.toNat))
  /-- The last operand is the first if there is only one. -/
  | compute {op : PointOp} {type : Option ElementType} {result first last : Address}
      (haction : Action.Of code ip instruction (.compute op type))
      (hresult : address code ip 1 = .ok result) (hfirst : address code ip 2 = .ok first)
      (hlast : address code ip (1 + instruction.opcode.sourceCount) = .ok last) :
      Decoded code ip instruction (.compute op type result first last)
  | assign {update : Update} {target source : Address}
      (haction : Action.Of code ip instruction (.assign update))
      (htarget : address code ip 1 = .ok target) (hsource : address code ip 2 = .ok source) :
      Decoded code ip instruction (.assign update target source)
  | call {word count : Word} {function : Builtin} {result : Address} {arguments : List Address}
      (hopcode : instruction.opcode = .call) (hword : code[ip + 1]? = some word)
      (hfunction : Vocabulary.ofCode? word.toNat = some function)
      (hresult : address code ip 2 = .ok result) (hcount : code[ip + 3]? = some count)
      (hleast : function.arity.1 ≤ count.toNat) (hmost : count.toNat ≤ function.arity.2)
      (harguments : ((List.range count.toNat).mapM fun n => address code ip (4 + n))
        = .ok arguments) :
      Decoded code ip instruction (.call function result arguments)
  | evaluate {name : Address} (hopcode : instruction.opcode = .evaluate)
      (hname : address code ip 1 = .ok name) : Decoded code ip instruction (.evaluate name)

theorem decoded_of_decode (h : decode code ip instruction = .ok command) :
    Decoded code ip instruction command := by
  obtain ⟨opcode, key⟩ := instruction
  -- by opcode, since each has words of its own to take apart
  cases opcode <;> simp only [decode, bind_eq_ok, pure_eq_ok] at h
  case null => exact h ▸ .nothing rfl
  case halt => exact h ▸ .halt rfl
  case reset => exact h ▸ .discard rfl
  case clearMask => exact h ▸ .clearMask rfl
  case invertMask => exact h ▸ .invertMask rfl
  case jump => exact h ▸ .jump rfl
  case generateMask =>
    obtain ⟨predicate, hpredicate, rfl⟩ := h
    exact .generateMask rfl hpredicate
  case evaluate =>
    obtain ⟨name, hname, rfl⟩ := h
    exact .evaluate rfl hname
  case transform | arithmetic | test =>
    obtain ⟨op, hop, result, hresult, first, hfirst, last, hlast, rfl⟩ := h
    exact .compute (.compute op (pointOp_eq_ok.mp hop) (by simp)) hresult hfirst hlast
  case negate | promote =>
    obtain ⟨op, hop, result, hresult, operand, hoperand, rfl⟩ := h
    exact .compute (.compute op (pointOp_eq_ok.mp hop) (by simp)) hresult hoperand hoperand
  case convert =>
    obtain ⟨op, hop, result, hresult, operand, hoperand, word, hword, type, htype, h⟩ := h
    split at h
    next => simp at h
    next hwidth =>
      obtain rfl := pure_eq_ok.mp h
      exact .compute (.convert op word type (pointOp_eq_ok.mp hop) rfl (fetch_eq_ok.mp hword)
        (oneWithCode_eq_ok.mp htype) (by simpa using hwidth)) hresult hoperand hoperand
  case assign =>
    split at h
    next update hupdate =>
      simp only [bind_eq_ok, pure_eq_ok] at h
      obtain ⟨target, htarget, source, hsource, rfl⟩ := h
      exact .assign (.assign update hupdate) htarget hsource
    next => simp at h
  case call =>
    obtain ⟨word, hword, function, hfunction, result, hresult, count, hcount, h⟩ := h
    split at h
    next => simp at h
    next harity =>
      obtain ⟨arguments, harguments, h⟩ := bind_eq_ok.mp h
      obtain rfl := pure_eq_ok.mp h
      exact .call rfl (fetch_eq_ok.mp hword) (oneWithCode_eq_ok.mp hfunction) hresult
        (fetch_eq_ok.mp hcount) (by omega) (by omega) harguments

/-- A computation is decoded whichever of the opcodes it has. -/
theorem decode_of_compute {op : PointOp} {type : Option ElementType} {result first last : Address}
    (haction : Action.Of code ip instruction (.compute op type))
    (hresult : address code ip 1 = .ok result) (hfirst : address code ip 2 = .ok first)
    (hlast : address code ip (1 + instruction.opcode.sourceCount) = .ok last) :
    decode code ip instruction = .ok (.compute op type result first last) := by
  obtain ⟨opcode, key⟩ := instruction
  cases haction with
  | compute op hop hopcode =>
    have hop' := pointOp_eq_ok.mpr hop
    cases opcode with
    | transform | arithmetic | test =>
      have hlast : address code ip 3 = .ok last := hlast
      simp [decode, hop', hresult, hfirst, hlast]
    | negate | promote =>
      -- the only operand is both the first and the last
      obtain rfl := Except.ok.inj (hfirst.symm.trans hlast)
      simp [decode, hop', hresult, hfirst]
    | convert => exact absurd rfl hopcode
    | _ => cases hop
  | convert op word type hop hopcode hword htype hwidth =>
    obtain rfl : opcode = .convert := hopcode
    obtain rfl := Except.ok.inj (hfirst.symm.trans hlast)
    simp [decode, pointOp_eq_ok.mpr hop, hresult, hfirst, Command.word, fetch_eq_ok.mpr hword,
      oneWithCode_eq_ok.mpr htype, hwidth]

/-- **Decoding.**  An instruction is decoded to a command exactly if its words say so. -/
theorem decode_eq_ok :
    decode code ip instruction = .ok command ↔ Decoded code ip instruction command := by
  refine ⟨decoded_of_decode, fun h => ?_⟩
  cases h with
  | compute haction hresult hfirst hlast => exact decode_of_compute haction hresult hfirst hlast
  | assign haction htarget hsource =>
    obtain - | - | ⟨_, hupdate⟩ := haction
    obtain ⟨operator, hopcode⟩ := Update.opcode_of_ofInstruction? hupdate
    simp [decode, hopcode, hupdate, htarget, hsource]
  | call hopcode hword hfunction hresult hcount hleast hmost harguments =>
    simp [decode, hopcode, Command.word, fetch_eq_ok.mpr hword, oneWithCode_eq_ok.mpr hfunction,
      hresult, fetch_eq_ok.mpr hcount, Nat.not_lt.mpr hleast, Nat.not_lt.mpr hmost, harguments]
  | generateMask hopcode hpredicate => simp [decode, hopcode, hpredicate]
  | evaluate hopcode hname => simp [decode, hopcode, hname]
  | _ => simp [decode, *]

end Command

end Shading
