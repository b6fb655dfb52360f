import ZeroCpu.Core.Agreement
import ZeroCpu.Core.Faults
import ZeroCpu.Core.UserMode
import ZeroCpu.Isa.Lossless

/-!
# The two engines in lock step

A program of `Instruction`s and its encoding, executed in User mode by `execute` and by
`executeBinaryInstruction`. Encoded operands mean what the operands they came from mean, so the
instructions agree; the one exception is a direct memory address of `2 ^ 63` or more, which the
encoding turns into a negative word. The binary engine faults when it fetches such an instruction
and the interpreted one when it uses the operand.
-/

namespace ZeroCpu

open Library Exec InstructionEncoder

variable {W : Type}

/-! ## Operands that cannot be used -/

/-- An operand that no instruction can use in User mode. -/
structure OperandView.Unusable (v : OperandView) : Prop where
  register : ∃ e, v.register = .error e
  target : ∃ e, v.target = .error e
  address : ∀ registers a, v.address registers = .ok a → 512 < a + 8
  source : ∀ registers x, v.source registers = .ok x → ∃ a, x = .inr a ∧ 512 < a + 8

/-- A side that is untouched still agrees. -/
theorem AgreeState.of_untouched {W' : Type} {c : Matching W W'} {s core : Core W} {t : Core W'}
    (h : AgreeState c s t) (hs : Untouched s core) : AgreeState c core t := by
  obtain ⟨state, ksp, idle⟩ := hs
  exact {
    user := state ▸ h.user
    user' := h.user'
    registers := state ▸ h.registers
    flags := state ▸ h.flags
    sp := state ▸ h.sp
    halted := state ▸ h.halted
    hasError := state ▸ h.hasError
    errorMessage := state ▸ h.errorMessage
    kernel_sp := ksp ▸ h.kernel_sp
    idle := idle ▸ h.idle
    idle' := h.idle'
    memory_size := state ▸ h.memory_size
    memory_size' := h.memory_size'
    memory := state ▸ h.memory
    pc := state ▸ h.pc }

namespace CPU

/-- The computation throws without touching anything but devices. -/
abbrev Fails (s : Core W) {α : Type} (x : Op W α) : Prop :=
  Triple (Untouched s) x (fun _ _ => False) (fun _ => Untouched s)

section Fails

variable {α β : Type} {s : Core W} {m : Setup W}

theorem Fails.first {x : Op W α} {f : α → Op W β} (hx : Fails s x) : Fails s (x >>= f) :=
  Triple.bind hx fun _ _ h => h.elim

/-- A sequence fails when its second part does, whatever the first has returned. -/
theorem Fails.after {x : Op W α} {f : α → Op W β} (hx : Keeps (Untouched s) x)
    (hf : ∀ a, Fails s (f a)) : Fails s (x >>= f) := Triple.bind hx.triple hf

/-- After a check that passes, the rest has to fail. -/
theorem Fails.check {r : Except Str α} {f : α → Op W β} (hf : ∀ a, r = .ok a → Fails s (f a)) :
    Fails s (Exec.lift r >>= f) := by
  intro core h
  cases r with
  | error e => exact h
  | ok a => exact hf a rfl core h

theorem Fails.throw {e : Str} : Fails s (Exec.throw e : Op W α) := fun _ h => h

/-- An error fails. -/
theorem Fails.lift {r : Except Str α} (h : ∃ e, r = .error e) :
    Fails s (Exec.lift r : Op W α) := by
  obtain ⟨e, rfl⟩ := h
  exact Fails.throw

/-- Outside the data window a data access throws. -/
theorem fails_requireDataMemoryAccess (hs : s.state.privilegeLevel = .user) {address : ℕ}
    (h : 512 < address + 8) (operation : Str) :
    Fails s (requireDataMemoryAccess address operation) := by
  intro core hcore
  have hu : core.state.isUserMode = true := isUserMode_eq (hcore.state ▸ hs)
  have hr : MemoryMap.isUserDataRange address 8 = false := by
    rw [Bool.eq_false_iff, ne_eq, MemoryMap.isUserDataRange_iff]
    omega
  simp only [requireDataMemoryAccess, bind_apply, get_apply, require_apply, hu, hr]
  exact hcore

variable {v : OperandView}

theorem fails_requireRegister (hv : v.Unusable) :
    Fails s (requireRegister v : Op W Unit) := (Fails.lift hv.register).first

/-- An operand that is unusable cannot be read in User mode. -/
theorem fails_readSource (hs : s.state.privilegeLevel = .user) (hv : v.Unusable) :
    Fails s (readSource m v) := by
  refine Fails.after Keeps.get fun core => Fails.check fun x hx => ?_
  obtain ⟨a, rfl, ha⟩ := hv.source _ x hx
  exact (fails_requireDataMemoryAccess hs ha _).first

/-- The address of an unusable operand is outside the data window. -/
theorem readAddress_unusable (hv : v.Unusable) :
    Triple (Untouched s) (readAddress v) (fun a core => Untouched s core ∧ 512 < a + 8)
      (fun _ => Untouched s) := by
  intro core h
  simp only [readAddress, bind_apply, get_apply, lift_apply]
  cases ha : v.address core.state.registers with
  | error e => exact h
  | ok a => exact ⟨h, hv.address _ a ha⟩

end Fails

/-- Conditional branches, which do not look at their operand unless they are taken. -/
def IsBranch (opcode : Opcode) : Prop :=
  opcode = .JE ∨ opcode = .JNE ∨ opcode = .JG ∨ opcode = .JL

variable {s : Core W} {m : Setup W} {e : Engine} {i : InstructionView}

/-- An instruction with an unusable destination throws, conditional branches apart. -/
theorem fails_perform_of_dst [LongDouble] (hs : s.state.privilegeLevel = .user)
    (hdst : i.dst.Unusable) (hnone : ∃ e, i.noOperand = .error e) (hop : ¬ IsBranch i.opcode) :
    Fails s (perform e m i) := by
  unfold perform
  refine Fails.after (keeps_untouched_privilege _) fun _ => ?_
  cases hi : i.opcode with
  | JE | JNE | JG | JL => exact absurd hi (by simp [IsBranch, hi] at hop)
  | NOP | HALT | EI | DI | IRET | RET => exact (Fails.lift hnone).first
  | MOV | LOAD | ADD | SUB | MUL | DIV | AND | OR | XOR | NOT | POP =>
    exact Fails.check fun _ _ => (fails_requireRegister hdst).first
  | CMP | TEST | PUSH => exact Fails.check fun _ _ => (fails_readSource hs hdst).first
  | JMP | CALL => exact Fails.check fun _ _ => (Fails.lift hdst.target).first
  | STORE =>
    refine Fails.check fun _ _ => Triple.bind (readAddress_unusable hdst) fun a core h => ?_
    exact Fails.after (keeps_untouched_readSource i.src)
      (fun _ => (fails_requireDataMemoryAccess hs h.2 _).first.first) core h.1
  | INT =>
    refine Fails.check fun _ _ => ?_
    cases m.interruptController with
    | none => exact Fails.throw
    | some r => exact (fails_readSource hs hdst).first
  | Invalid => exact Fails.throw

/-- An instruction with an unusable source throws. -/
theorem fails_perform_of_src [LongDouble] (hs : s.state.privilegeLevel = .user)
    (hsrc : i.src.Unusable) (hnone : ∃ e, i.noOperand = .error e)
    (hone : ∃ e, i.oneOperand = .error e) : Fails s (perform e m i) := by
  unfold perform
  refine Fails.after (keeps_untouched_privilege _) fun _ => ?_
  cases i.opcode with
  | NOP | HALT | EI | DI | IRET | RET => exact (Fails.lift hnone).first
  | JE | JNE | JG | JL | JMP | CALL | INT | PUSH | POP | NOT => exact (Fails.lift hone).first
  | MOV =>
    exact Fails.check fun _ _ => Fails.after (keeps_untouched_requireRegister _) fun _ =>
      (fails_readSource hs hsrc).first
  | LOAD =>
    refine Fails.check fun _ _ => Fails.after (keeps_untouched_requireRegister _) fun _ => ?_
    refine Triple.bind (readAddress_unusable hsrc) fun a core h => ?_
    exact (fails_requireDataMemoryAccess hs h.2 _).first.first core h.1
  | STORE =>
    exact Fails.check fun _ _ => Fails.after (keeps_untouched_readAddress _) fun _ =>
      (fails_readSource hs hsrc).first
  | ADD | SUB | MUL | DIV | AND | OR | XOR =>
    exact Fails.check fun _ _ => Fails.after (keeps_untouched_requireRegister _) fun _ =>
      Fails.after (keeps_untouched_readSource _) fun _ => (fails_readSource hs hsrc).first
  | CMP | TEST =>
    exact Fails.check fun _ _ => Fails.after (keeps_untouched_readSource _) fun _ =>
      (fails_readSource hs hsrc).first
  | Invalid => exact Fails.throw

end CPU

/-! ## Encoded operands mean the same -/

/-- A program of `Instruction`s loaded for User mode. -/
structure ProgramSetup (m : Setup W) (program : List Instruction) (labels : LabelTable) : Prop where
  interpreted : m.hasBinaryProgram = false
  program_eq : m.program = program
  labels_eq : m.labels = labels
  has_range : m.hasUserCodeRange = true
  range_begin : m.userCodeBegin = 0
  range_end : m.userCodeEndExclusive = program.length

/-- Instruction `i` is at byte `512 + 24 * i`; the data window and the User stack are compared. -/
def engineMatching (W : Type) : Matching W W where
  pc := fun i => 512 + 24 * i
  visible := fun i => i < 512 ∨ (2048 ≤ i ∧ i < 4000)
  world := Eq
  strict := False

/-- A label operand names an instruction of the program. -/
def LabelInside (labels : LabelTable) (n : ℕ) : Operand → Prop
  | .label name => ∃ index, labels.lookup name = some index ∧ index < n
  | _ => True

/-- A direct memory address that is negative as a signed word. -/
def IsHugeAddress : Operand → Prop
  | .memoryAddress address => 2 ^ 63 ≤ address.toNat
  | _ => False

namespace CPU

variable {program : List Instruction} {labels : LabelTable} {m m' : Setup W}

/-- A word that is not negative is accepted as a size. -/
theorem checkedSize_eq_ok {value : Word} {error : Str} (h : value.toNat < 2 ^ 63) :
    checkedSize value error = .ok value.toNat := by
  have hnonneg : ¬ value.toInt < 0 := by
    rw [BitVec.toInt_neg_iff]
    omega
  rw [checkedSize, if_neg hnonneg]

/-- Both engines accept the same words as sizes. -/
theorem matches_checkedSize (value : Word) (error error' : Str) :
    Matches False Eq (checkedSize value error) (checkedSize value error') := by
  unfold checkedSize
  split_ifs
  · exact False.elim
  · exact (rfl : value.toNat = value.toNat)

/-- An encoded operand matches its source, unless its address is huge. -/
theorem operandMatches_encoded (hm : ProgramSetup m program labels)
    (hm' : UserSetup m' (24 * program.length)) {operand : Operand} {type : EncodedOperandType}
    {payload : Word} (henc : OperandEncodes labels type payload operand)
    (hlabel : LabelInside labels program.length operand) (hsmall : ¬ IsHugeAddress operand) :
    OperandMatches (engineMatching W) (operand.view m) (binaryView m' type payload) := by
  cases operand with
  | none =>
    obtain ⟨rfl, rfl⟩ := henc
    exact ⟨False.elim, fun _ => False.elim, fun _ => False.elim, False.elim⟩
  | immediate value =>
    obtain ⟨rfl, rfl⟩ := henc
    exact ⟨False.elim, fun _ => False.elim, fun _ => rfl, False.elim⟩
  | register reg =>
    obtain ⟨rfl, rfl⟩ := henc
    have hreg := decodeBinaryRegister_encodeRegister reg
    refine ⟨?_, fun _ => False.elim, fun _ => ?_, False.elim⟩
    · simp only [binaryView, binaryRegisterDestination, ne_eq, not_true_eq_false, if_false, hreg]
      exact rfl
    · simp only [binaryView, hreg]
      exact rfl
  -- Without a huge address the encoded address is not negative.
  | memoryAddress address =>
    obtain ⟨rfl, rfl⟩ := henc
    have hok : ∀ error, checkedSize payload error = .ok payload.toNat := fun error =>
      checkedSize_eq_ok (by simpa [IsHugeAddress] using hsmall)
    refine ⟨False.elim, fun _ => ?_, fun _ => ?_, False.elim⟩
    · simp only [binaryView, binaryAddress, hok]
      exact rfl
    · simp only [binaryView, binaryAddress, hok]
      exact rfl
  | registerIndirectAddress reg =>
    obtain ⟨rfl, rfl⟩ := henc
    have hreg := decodeBinaryRegister_encodeRegister reg
    refine ⟨False.elim, fun registers => ?_, fun registers => ?_, False.elim⟩
    · simp only [binaryView, binaryAddress, hreg, ok_bind]
      exact matches_checkedSize _ _ _
    · simp only [binaryView, binaryAddress, hreg, ok_bind]
      have := matches_checkedSize (registers reg) "Negative register-indirect memory address"
        "Negative binary register-indirect memory address"
      revert this
      simp only [Operand.view, Operand.address]
      rcases checkedSize (registers reg) "Negative register-indirect memory address" with _ | a <;>
        rcases checkedSize (registers reg) "Negative binary register-indirect memory address"
          with _ | b
      · exact id
      · exact id
      · exact id
      · exact congrArg Sum.inr
  | label name =>
    obtain ⟨index, hlookup, rfl, rfl⟩ := henc
    obtain ⟨index', hlookup', hlt⟩ := hlabel
    obtain rfl : index = index' := Option.some.inj (hlookup.symm.trans hlookup')
    have hle := hm'.le
    have hpayload : (BitVec.ofNat 64 (24 * index)).toNat = 24 * index :=
      Nat.mod_eq_of_lt (by omega)
    refine ⟨False.elim, fun _ => False.elim, fun _ => False.elim, ?_⟩
    -- A label inside the program is an instruction boundary of the code section.
    have hcode : isBinaryPcInCode m' (512 + 24 * index) = true :=
      (isBinaryPcInCode_iff hm' _).mpr ⟨by omega, by omega, by omega⟩
    simp only [Operand.view, resolveLabelAddress, hm.labels_eq, hlookup, binaryView,
      readBinaryCodeAddress, checkedSize_eq_ok (by omega : (BitVec.ofNat 64 (24 * index)).toNat < _),
      hpayload, hm'.base, ok_bind, hcode]
    exact rfl

/-- Whether an operand is present survives encoding, and an absent one has no payload. -/
theorem isNone_of_encodes {operand : Operand} {type : EncodedOperandType} {payload : Word}
    (henc : OperandEncodes labels type payload operand) :
    (type == .None) = (operand == .none)
      ∧ ((operand == .none) = true → (payload == 0) = true) := by
  cases operand with
  | none =>
    obtain ⟨rfl, rfl⟩ := henc
    exact ⟨rfl, fun _ => rfl⟩
  | label name =>
    obtain ⟨index, -, rfl, -⟩ := henc
    exact ⟨rfl, nofun⟩
  | _ =>
    obtain ⟨rfl, -⟩ := henc
    exact ⟨rfl, nofun⟩

/-- Equal checks match, with any messages. -/
theorem matches_checked {b b' : Bool} (h : b = b') (error error' : Str) :
    Matches False Eq (checked b error) (checked b' error') := by
  subst h
  cases b with
  | false => exact False.elim
  | true => exact (rfl : () = ())

/-- The binary CPU and the interpreted CPU execute the same instruction. -/
theorem instructionMatches_encoded (hm : ProgramSetup m program labels)
    (hm' : UserSetup m' (24 * program.length)) {instruction : Instruction}
    {d : DecodedInstruction} (hop : d.opcode = instruction.opcode)
    (hdst : OperandEncodes labels d.dst_type d.dst_payload instruction.dst)
    (hsrc : OperandEncodes labels d.src_type d.src_payload instruction.src)
    (hlabel : LabelInside labels program.length instruction.dst
      ∧ LabelInside labels program.length instruction.src)
    (hsmall : ¬ IsHugeAddress instruction.dst ∧ ¬ IsHugeAddress instruction.src)
    (hkind : instruction.opcode ∉ [.CALL, .RET, .INT]) :
    InstructionMatches (engineMatching W) m m' (instruction.view m) (d.view m') := by
  obtain ⟨hd, hd0⟩ := isNone_of_encodes hdst
  obtain ⟨hs, hs0⟩ := isNone_of_encodes hsrc
  simp only [List.mem_cons, List.not_mem_nil, or_false, not_or] at hkind
  refine ⟨hop.symm, matches_checked ?_ _ _, matches_checked ?_ _ _, matches_checked ?_ _ _,
    operandMatches_encoded hm hm' hdst hlabel.1 hsmall.1,
    operandMatches_encoded hm hm' hsrc hlabel.2 hsmall.2, ?_, ?_⟩
  · rw [hd, hs]
    cases h1 : instruction.dst == .none with
    | false => simp
    | true =>
      cases h2 : instruction.src == .none with
      | false => simp
      | true => rw [hd0 h1, hs0 h2]; rfl
  · rw [bne, bne, hd, hs]
    cases h2 : instruction.src == .none with
    | false => simp
    | true => rw [hs0 h2, Bool.and_true, Bool.and_true]
  · rw [bne, bne, bne, bne, hd, hs]
  · rintro (h | h)
    · exact absurd h hkind.1
    · exact absurd h hkind.2.1
  · intro h
    exact absurd h hkind.2.2

/-! ## Fetching the same instruction -/

/-- The matching of the engines fits a program and its encoding. -/
theorem matching_fits (hm : ProgramSetup m program labels)
    (hm' : UserSetup m' (24 * program.length)) (hbus : m'.mmioBus = m.mmioBus) :
    (engineMatching W).Fits m m' where
  window := fun _ h => h
  bus := by
    intro address _
    have heq : busAt m' address = busAt m address := by rw [busAt, hbus, busAt]
    rw [heq]
    cases busAt m address with
    | none => exact trivial
    | some bus =>
      refine ⟨?_, fun value => ?_⟩
      · rintro w _ rfl
        rcases bus.read address w with ⟨e | a, w'⟩
        · exact False.elim
        · exact ⟨rfl, rfl⟩
      · rintro w _ rfl
        rcases bus.write address value w with ⟨e | a, w'⟩
        · exact False.elim
        · exact rfl
  executable := by
    intro address
    -- Both ranges are the whole program, so both address checks ask for an index inside it.
    have hleft : (∃ u, requireExecutionAddress m address .user = .ok u)
        ↔ address < program.length := by
      simp only [requireExecutionAddress, hm.has_range, hm.range_begin, hm.range_end,
        isLoadedCodeAddress, hm.interpreted, hm.program_eq]
      split_ifs <;> simp_all
    have hright : (∃ u, requireExecutionAddress m' (512 + 24 * address) .user = .ok u)
        ↔ address < program.length := by
      simp only [requireExecutionAddress_user hm', IsCodeAddress, exists_const]
      omega
    show Matches False _ _ (requireExecutionAddress m' (512 + 24 * address) .user)
    generalize requireExecutionAddress m address .user = left at hleft ⊢
    generalize requireExecutionAddress m' (512 + 24 * address) .user = right at hright ⊢
    rcases left with e | u <;> rcases right with e' | u'
    · exact False.elim
    · exact absurd (hleft.mpr (hright.mp ⟨u', rfl⟩)) (by simp)
    · exact absurd (hright.mpr (hleft.mp ⟨u, rfl⟩)) (by simp)
    · exact trivial

/-- The matching of the engines fits the engines. -/
theorem matching_fitsEngines : (engineMatching W).FitsEngines (Engine.interpreted m)
    (Engine.binary m') where
  advance := by
    intro address
    show 512 + 24 * (address + 1) = 512 + 24 * address + 24
    omega
  returnError := False.elim
  invalidOpcode := False.elim

/-- The trace of an encoded operand fails exactly on huge addresses. -/
theorem traceOperand_of_encodes (hm' : UserSetup m' (24 * program.length)) {operand : Operand}
    {type : EncodedOperandType} {payload : Word}
    (henc : OperandEncodes labels type payload operand)
    (hlabel : LabelInside labels program.length operand) :
    (IsHugeAddress operand → ∃ e, traceOperandFromEncoded m' type payload = .error e)
    ∧ (¬ IsHugeAddress operand → ∃ shown, traceOperandFromEncoded m' type payload = .ok shown) := by
  -- Every operand but a huge address and a label is traced back; a label is shown as a code
  -- address.
  by_cases ht : TraceableOperand operand
  · refine ⟨fun hhuge => ?_, fun _ => ⟨operand, traceOperandFromEncoded_of_encodes henc ht⟩⟩
    cases operand with
    | memoryAddress address =>
      simp only [TraceableOperand, IsHugeAddress] at ht hhuge
      omega
    | _ => exact hhuge.elim
  · cases operand with
    | memoryAddress address =>
      obtain ⟨rfl, rfl⟩ := henc
      have hneg : payload.toInt < 0 := by
        rw [BitVec.toInt_neg_iff]
        simp only [TraceableOperand] at ht
        omega
      refine ⟨fun _ => ?_, fun h => absurd (Nat.le_of_not_lt ht) h⟩
      rw [traceOperandFromEncoded, reject_of_pos hneg]
      exact ⟨_, rfl⟩
    | label name =>
      obtain ⟨index, hlookup, rfl, rfl⟩ := henc
      obtain ⟨index', hlookup', hlt⟩ := hlabel
      obtain rfl : index = index' := Option.some.inj (hlookup.symm.trans hlookup')
      have hle := hm'.le
      have hpayload : (BitVec.ofNat 64 (24 * index)).toNat = 24 * index :=
        Nat.mod_eq_of_lt (by omega)
      refine ⟨False.elim, fun _ => ?_⟩
      rw [traceOperandFromEncoded, checkedSize_eq_ok (by omega)]
      exact ⟨_, rfl⟩
    | _ => exact absurd trivial ht

/-- The trace of an encoded instruction fails exactly when an operand is a huge address. -/
theorem traceInstruction_of_encoded (hm' : UserSetup m' (24 * program.length))
    {instruction : Instruction} {d : DecodedInstruction}
    (hdst : OperandEncodes labels d.dst_type d.dst_payload instruction.dst)
    (hsrc : OperandEncodes labels d.src_type d.src_payload instruction.src)
    (hlabel : LabelInside labels program.length instruction.dst
      ∧ LabelInside labels program.length instruction.src) :
    (IsHugeAddress instruction.dst ∨ IsHugeAddress instruction.src →
      ∃ e, traceInstruction m' d = .error e)
    ∧ (¬ IsHugeAddress instruction.dst ∧ ¬ IsHugeAddress instruction.src →
      ∃ shown, traceInstruction m' d = .ok shown) := by
  obtain ⟨hd, hd'⟩ := traceOperand_of_encodes hm' hdst hlabel.1
  obtain ⟨hs, hs'⟩ := traceOperand_of_encodes hm' hsrc hlabel.2
  by_cases h1 : IsHugeAddress instruction.dst
  · obtain ⟨e, he⟩ := hd h1
    refine ⟨fun _ => ⟨e, ?_⟩, fun h => absurd h1 h.1⟩
    rw [traceInstruction, he]
    rfl
  · obtain ⟨dst, hdst'⟩ := hd' h1
    by_cases h2 : IsHugeAddress instruction.src
    · obtain ⟨e, he⟩ := hs h2
      refine ⟨fun _ => ⟨e, ?_⟩, fun h => absurd h2 h.2⟩
      rw [traceInstruction, hdst', he]
      rfl
    · obtain ⟨src, hsrc'⟩ := hs' h2
      refine ⟨fun h => absurd h (not_or.mpr ⟨h1, h2⟩), fun _ => ?_⟩
      rw [traceInstruction, hdst', hsrc', ok_bind, ok_bind]
      split_ifs <;> exact ⟨_, rfl⟩

/-- A huge address is unusable for the interpreted engine. -/
theorem unusable_of_huge {operand : Operand} (h : IsHugeAddress operand) :
    (operand.view m).Unusable := by
  cases operand with
  | memoryAddress address =>
    have hhuge : 2 ^ 63 ≤ address.toNat := h
    refine ⟨⟨_, rfl⟩, ⟨_, rfl⟩, fun _ a ha => ?_, fun _ x hx => ⟨address.toNat, ?_, by omega⟩⟩
    · obtain rfl := Except.ok.inj ha
      omega
    · exact (Except.ok.inj hx).symm
  | _ => exact h.elim

/-- The interpreted engine throws on a huge address, conditional branches apart. -/
theorem fails_execute_of_huge [LongDouble] {s : Core W} (hs : s.state.privilegeLevel = .user)
    {instruction : Instruction}
    (h : IsHugeAddress instruction.dst ∨ IsHugeAddress instruction.src)
    (hbranch : IsBranch instruction.opcode → ¬ IsHugeAddress instruction.dst) :
    Fails s (execute m instruction) := by
  have hpresent : ∀ {operand : Operand}, IsHugeAddress operand → (operand == .none) = false := by
    intro operand hhuge
    cases operand with
    | memoryAddress address => rfl
    | _ => exact hhuge.elim
  have hchecked : ∀ {b : Bool} {error : Str}, b = false → ∃ e, checked b error = .error e := by
    rintro _ error rfl
    exact ⟨error, rfl⟩
  rw [execute_eq_perform]
  rcases h with hd | hd
  · refine fails_perform_of_dst hs (unusable_of_huge hd) (hchecked ?_) fun hb => hbranch hb hd
    rw [hpresent hd, Bool.false_and]
  · refine fails_perform_of_src hs (unusable_of_huge hd) (hchecked ?_) (hchecked ?_)
    · rw [hpresent hd, Bool.and_false]
    · rw [hpresent hd, Bool.and_false]

/-- What the code section gives the binary CPU to execute. -/
theorem fetched_encoded {code : List UInt8} (hcode : encodeProgram program labels = .ok code)
    (hm' : UserSetup m' (24 * program.length)) {state : CPUState} {index : ℕ}
    (huser : state.privilegeLevel = .user) (hpc : state.pc = 512 + 24 * index)
    (hsize : state.memory.size = 4096)
    (hmem : state.memory.slice 512 (24 * program.length) = code) {instruction : Instruction}
    (hi : program[index]? = some instruction) :
    ∃ d : DecodedInstruction, d.opcode = instruction.opcode
      ∧ OperandEncodes labels d.dst_type d.dst_payload instruction.dst
      ∧ OperandEncodes labels d.src_type d.src_payload instruction.src
      ∧ fetched m' state = (traceInstruction m' d).map fun shown => (d, shown) := by
  have hlt : index < program.length := (List.getElem?_eq_some_iff.mp hi).1
  have hle := hm'.le
  obtain ⟨hlen, hblocks⟩ := encodeProgram_eq_ok hcode
  obtain ⟨d, hbytes, hop, hdst, hsrc⟩ := encodeInstruction_eq_ok (hblocks index instruction hi)
  have hin : IsCodeAddress (24 * program.length) state.pc := ⟨by omega, by omega, by omega⟩
  have hblock : codeBlock code index = state.memory.slice state.pc 24 := by
    rw [codeBlock, ← hmem, hpc, Memory.slice, Memory.slice, List.drop_take, List.take_take,
      List.drop_drop, Nat.min_eq_left (by omega)]
  have hread : state.memory.readBytes state.pc kInstructionSize = .ok (codeBlock code index) :=
    Memory.readBytes_eq_ok.mpr ⟨by rw [hsize, kInstructionSize]; omega, hblock⟩
  refine ⟨d, hop, hdst, hsrc, ?_⟩
  rw [fetched, huser, (requireExecutionAddress_user hm' state.pc (u := ())).mpr hin, ok_bind,
    reject_of_not (by simp [(isBinaryPcInCode_iff hm' state.pc).mpr hin]), ok_bind, hread, ok_bind,
    decodeInstruction_bytes hbytes, ok_bind]
  rcases traceInstruction m' d with e | shown <;> rfl

end CPU

/-! ## Lock step -/

/-- A program that both engines execute alike. -/
structure Comparable (program : List Instruction) (labels : LabelTable) : Prop where
  kinds : ∀ i ∈ program, i.opcode ∉ [.CALL, .RET, .INT, .IRET]
  labels : ∀ i ∈ program, LabelInside labels program.length i.dst
    ∧ LabelInside labels program.length i.src
  branches : ∀ i ∈ program, CPU.IsBranch i.opcode → ¬ IsHugeAddress i.dst

/-- A program and its encoding, loaded into two CPUs with the same devices. -/
structure EnginePair (program : List Instruction) (labels : LabelTable) (code : List UInt8)
    (m m' : Setup W) : Prop where
  comparable : Comparable program labels
  encoded : encodeProgram program labels = .ok code
  interpreted : ProgramSetup m program labels
  binary : UserSetup m' (24 * program.length)
  bus : m'.mmioBus = m.mmioBus
  devices : m'.clockedDevices = m.clockedDevices
  no_controller : m.interruptController = none
  no_controller' : m'.interruptController = none
  no_handler' : m'.softwareInterruptHandler = none

/-- A CPU with a program of `Instruction`s and a CPU with its encoding, between two steps. -/
structure InLockStep (m m' : Setup W) (k : Confinement W) (cpu cpu' : CPU W) : Prop where
  setup : cpu.setup = m
  setup' : cpu'.setup = m'
  agree : AgreeState (engineMatching W) cpu.core cpu'.core
  world : cpu.core.state.halted = false → cpu.core.world = cpu'.core.world
  confined : UserContext k cpu'.core

/-- The binary CPU keeps the code section it was loaded with. -/
def codeConfinement (W : Type) (n : ℕ) (memory : Memory) : Confinement W where
  len := 24 * n
  frozen := fun i => 512 ≤ i ∧ i < 2048
  memory := memory
  worldOk := fun _ => True

namespace CPU

section LockStep

variable {program : List Instruction} {labels : LabelTable} {code : List UInt8} {m m' : Setup W}
  {memory : Memory}

/-- Both sides tick the same devices. -/
theorem sim_tickDevices (devices : List (ClockedDevice W)) :
    Sim (engineMatching W) (tickDevices devices) (tickDevices devices) Eq := by
  induction devices with
  | nil => exact Sim.pure rfl
  | cons device rest ih =>
    refine (sim_zoom_world (Q := Eq) ?_).bind fun _ _ _ => ih
    rintro w _ rfl
    rcases device.tick w with ⟨e | u, w'⟩
    · exact False.elim
    · exact ⟨rfl, rfl⟩

/-- Both clocks tick, or neither. -/
theorem sim_tickUnlessStopped (hdevices : m'.clockedDevices = m.clockedDevices) :
    Sim (engineMatching W) (tickUnlessStopped m) (tickUnlessStopped m') Eq := by
  refine Sim.read fun s t h => ?_
  rw [h.halted, h.hasError, tickClockedDevices, tickClockedDevices, hdevices]
  split
  · exact sim_tickDevices _
  · exact Sim.pure rfl

/-- The instruction at PC keeps the agreement, whichever way the engines find its operands
unusable. -/
theorem agree_stepInstruction [LongDouble] (p : EnginePair program labels code m m')
    {cpu cpu' : CPU W} (hs : cpu.setup = m) (hs' : cpu'.setup = m') {core core' : Core W}
    (h : Agree (engineMatching W) core core')
    (hmem : core'.state.memory.slice 512 (24 * program.length) = code) :
    AgreeState (engineMatching W) (cpu.stepInstruction core).core (cpu'.stepInstruction core').core
      ∧ ((cpu.stepInstruction core).core.state.halted = false →
        (cpu.stepInstruction core).core.world = (cpu'.stepInstruction core').core.world) := by
  obtain ⟨hprogram, hcode, hm, hm', hbus, hdevices, -, -, -⟩ := p
  have hfits := matching_fits hm hm' hbus
  rw [stepInstruction_program (by rw [hs]; exact hm.interpreted),
    stepInstruction_binary (by rw [hs']; exact hm'.binary), hs, hs']
  have hexec := hfits.executable core.state.pc
  rw [fetchedProgram, h.user]
  cases hleft : requireExecutionAddress m core.state.pc .user with
  | error e =>
    -- PC is not executable for either CPU.
    rw [hleft] at hexec
    obtain ⟨e', hright⟩ : ∃ e', fetched m' core'.state = .error e' := by
      rw [fetched, h.user', h.pc]
      cases hr : requireExecutionAddress m' ((engineMatching W).pc core.state.pc) .user with
      | error e' => exact ⟨e', rfl⟩
      | ok u => rw [hr] at hexec; exact hexec.elim
    rw [hright, error_bind]
    simp only [finishStep_core]
    exact agree_settle_error False.elim h.toAgreeState
  | ok u =>
    have hlt : core.state.pc < program.length := by
      simp only [requireExecutionAddress, hm.has_range, hm.range_begin, hm.range_end] at hleft
      split_ifs at hleft with h1 h2
      · exact absurd rfl h1
      · exact h2.2.2.1
    have hi : program[core.state.pc]? = some program[core.state.pc] :=
      List.getElem?_eq_getElem hlt
    have hin : program[core.state.pc] ∈ program := List.getElem_mem hlt
    generalize program[core.state.pc] = instruction at hi hin
    obtain ⟨d, hop, hdst, hsrc, hfetch⟩ := fetched_encoded hcode hm' h.user' h.pc h.memory_size'
      hmem hi
    obtain ⟨hhuge, hsmall⟩ := traceInstruction_of_encoded hm' hdst hsrc (hprogram.labels _ hin)
    simp only [ok_bind, hm.program_eq, hi, hfetch]
    by_cases hcase : IsHugeAddress instruction.dst ∨ IsHugeAddress instruction.src
    · obtain ⟨e', he'⟩ := hhuge hcase
      have hfails : Fails core (finishInstruction m (execute m instruction)) :=
        (fails_execute_of_huge h.user hcase fun hb => hprogram.branches _ hin hb).first
      have hpost := hfails core ⟨rfl, rfl, rfl⟩
      simp only [he', Except.map, finishStep_core]
      generalize finishInstruction m (execute m instruction) core = out at hpost ⊢
      rcases out with ⟨e | u, left⟩
      · exact agree_settle_error False.elim (h.toAgreeState.of_untouched hpost)
      · exact hpost.elim
    · obtain ⟨shown, hshown⟩ := hsmall (not_or.mp hcase)
      have hmatch := instructionMatches_encoded hm hm' hop hdst hsrc (hprogram.labels _ hin)
        (not_or.mp hcase) fun hmem => hprogram.kinds _ hin (List.mem_append_left [Opcode.IRET] hmem)
      have hsim : Sim (engineMatching W) (finishInstruction m (execute m instruction))
          (finishInstruction m' (executeBinaryInstruction m' d)) Eq := by
        rw [execute_eq_perform, executeBinaryInstruction_eq_perform]
        exact (sim_perform hfits matching_fitsEngines hmatch).bind fun _ _ _ =>
          sim_tickUnlessStopped hdevices
      simp only [hshown, Except.map, finishStep_core]
      exact agree_settle ((hsim.conseq (fun _ _ h => h) (fun _ _ _ _ h => h.2)
        fun _ _ _ _ h => h) core core' h)

/-- The confinement of the code fits the binary engine. -/
theorem codeConfinement_fits (hm' : UserSetup m' (24 * program.length))
    (hnone : m'.interruptController = none) :
    (codeConfinement W program.length memory).Fits m' where
  toUserSetup := hm'
  frozen_outside := fun _ h => ⟨h.1, .inl h.2⟩
  bus_read := fun _ _ _ _ _ _ _ => trivial
  bus_write := fun _ _ _ _ _ _ _ _ => trivial
  tick := fun _ _ _ _ => trivial
  no_vector := by
    intro r hr
    rw [hnone] at hr
    cases hr

/-- One step keeps the two CPUs in lock step. -/
theorem step_inLockStep [LongDouble] (p : EnginePair program labels code m m')
    (hmem : memory.slice 512 (24 * program.length) = code) (hsize : memory.size = 4096)
    {cpu cpu' : CPU W}
    (h : InLockStep m m' (codeConfinement W program.length memory) cpu cpu') :
    InLockStep m m' (codeConfinement W program.length memory) cpu.step cpu'.step := by
  obtain ⟨hs', hconfined⟩ := step_confined
    (codeConfinement_fits p.binary p.no_controller') p.no_handler' h.setup' h.confined
  by_cases hstop : cpu.core.state.halted = true ∨ cpu.core.state.hasError = true
  · have hstop' : cpu'.core.state.halted = true ∨ cpu'.core.state.hasError = true := by
      rw [← h.agree.halted, ← h.agree.hasError]
      exact hstop
    rw [step_of_stopped hstop, step_of_stopped hstop']
    exact h
  · have hstop' : ¬ (cpu'.core.state.halted = true ∨ cpu'.core.state.hasError = true) := by
      rw [← h.agree.halted, ← h.agree.hasError]
      exact hstop
    have hidle : ∀ {c : CPU W}, c.setup.interruptController = none → ∀ core : Core W,
        servicePendingInterruptIfNeeded c.setup core = (.ok false, core) := by
      intro c hc core
      simp only [servicePendingInterruptIfNeeded, bind_apply, get_apply, hc]
      rfl
    have hstep := step_of_running hstop (hidle (h.setup ▸ p.no_controller) _)
    have hstep' := step_of_running hstop' (hidle (h.setup' ▸ p.no_controller') _)
    -- The code section still holds the encoded program.
    have hle := p.binary.le
    have hkept : cpu'.core.state.memory.slice 512 (24 * program.length) = code := by
      rw [← hmem]
      exact Memory.slice_congr (by rw [h.agree.memory_size']; omega) (by omega)
        fun i h1 h2 => h.confined.memory i ⟨h1, by omega⟩
    have hworld := h.world (by simpa using (not_or.mp hstop).1)
    have hcores : Agree (engineMatching W) { cpu.core with softwareInterruptObservation := none }
        { cpu'.core with softwareInterruptObservation := none } := { h.agree with world := hworld }
    obtain ⟨hagree, hw⟩ := agree_stepInstruction p h.setup h.setup' hcores hkept
    rw [hstep'] at hs' hconfined
    rw [hstep, hstep']
    refine ⟨?_, hs', hagree, hw, hconfined⟩
    rw [stepInstruction_program (by rw [h.setup]; exact p.interpreted.interpreted)]
    split <;> exact (finishStep_setup _ _ _ _).trans h.setup

/-- Any number of steps keeps the two CPUs in lock step. -/
theorem steps_inLockStep [LongDouble] (p : EnginePair program labels code m m')
    (hmem : memory.slice 512 (24 * program.length) = code) (hsize : memory.size = 4096) (n : ℕ)
    {cpu cpu' : CPU W}
    (h : InLockStep m m' (codeConfinement W program.length memory) cpu cpu') :
    InLockStep m m' (codeConfinement W program.length memory) (steps n cpu) (steps n cpu') := by
  induction n generalizing cpu cpu' with
  | zero => exact h
  | succ n ih => exact ih (step_inLockStep p hmem hsize h)

end LockStep

/-! ## From reset -/

/-- A new CPU with a bus and clocked devices. -/
def connected (world : W) (bus : Option (MMIOBus W)) (devices : List (ClockedDevice W)) : CPU W :=
  let cpu := CPU.new world
  { cpu with setup := { cpu.setup with mmioBus := bus, clockedDevices := devices } }

/-- Put a loaded CPU in User mode. -/
def inUserMode (cpu : CPU W) : CPU W :=
  { cpu with core := cpu.core.updateState fun state => { state with privilegeLevel := .user } }

/-- What a comparison of the two engines looks at. -/
structure SameExecution (cpu cpu' : CPU W) : Prop where
  registers : cpu.core.state.registers = cpu'.core.state.registers
  flags : cpu.core.state.flags = cpu'.core.state.flags
  sp : cpu.core.state.sp = cpu'.core.state.sp
  privilege : cpu.core.state.privilegeLevel = cpu'.core.state.privilegeLevel
  halted : cpu.core.state.halted = cpu'.core.state.halted
  hasError : cpu.core.state.hasError = cpu'.core.state.hasError
  data : ∀ i, i < 0x200 → cpu.core.state.memory.byteAt i = cpu'.core.state.memory.byteAt i
  stack : ∀ i, 0x800 ≤ i → i < 0xFA0 →
    cpu.core.state.memory.byteAt i = cpu'.core.state.memory.byteAt i
  pc : cpu'.core.state.pc = 512 + 24 * cpu.core.state.pc

end CPU

/-- The executable of a code section, entered at its first instruction. -/
def executableOfCode (code : List UInt8) : Binary.BinaryProgram where
  header := { code_size := BitVec.ofNat 32 code.length }
  code := code

namespace CPU

variable {program : List Instruction} {labels : LabelTable} {code : List UInt8}

/-- Two CPUs in lock step execute the same. -/
theorem sameExecution_of_inLockStep {m m' : Setup W} {k : Confinement W} {cpu cpu' : CPU W}
    (h : InLockStep m m' k cpu cpu') : SameExecution cpu cpu' where
  registers := h.agree.registers
  flags := h.agree.flags
  sp := h.agree.sp
  privilege := h.agree.user.trans h.agree.user'.symm
  halted := h.agree.halted
  hasError := h.agree.hasError
  data := fun i hi => h.agree.memory i (.inl hi)
  stack := fun i h1 h2 => h.agree.memory i (.inr ⟨h1, h2⟩)
  pc := h.agree.pc

/-- The memory a binary CPU starts with: the code section and zeros. -/
def codeMemory (cpu : CPU W) (code : List UInt8) : Memory :=
  cpu.core.state.memory.reset.splice 512 code

/-- A binary CPU after loading a code section. -/
def loadedCode (cpu : CPU W) (code : List UInt8) : CPU W where
  setup := { cpu.setup with
    program := []
    labels := []
    hasBinaryProgram := true
    binaryCodeBase := 512
    binaryEntryPoint := 512
    binaryCodeSize := code.length
    hasUserCodeRange := true
    userCodeBegin := 512
    userCodeEndExclusive := 512 + code.length }
  core := { cpu.core with
    state := { cpu.core.state.reset with memory := codeMemory cpu code, pc := 512 }
    kernelStackPointer := MemoryMap.kKernelStackBase
    usingKernelInterruptStack := false
    processExitRequest := none }
  trace := []

/-- Every encoded program of at most 64 instructions loads. -/
theorem loadBinaryProgram_executableOfCode {cpu : CPU W} (hpos : 0 < code.length)
    (hle : code.length ≤ 1536) (hal : code.length % 24 = 0)
    (hsize : cpu.core.state.memory.size = 4096) :
    loadBinaryProgram (executableOfCode code) cpu = (.ok (), loadedCode cpu code) := by
  have hne : code ≠ [] := List.ne_nil_of_length_pos hpos
  have hmod : code.length % 2 ^ 32 = code.length := Nat.mod_eq_of_lt (by omega)
  have hload : Binary.BinaryLoader.loadIntoMemory (executableOfCode code)
      cpu.core.state.memory.reset 512
        = .ok (⟨512, 512, code.length, 0, 0⟩, codeMemory cpu code) := by
    refine Binary.BinaryLoader.loadIntoMemory_eq_ok.mpr ⟨?_, ?_, ?_, ?_, rfl, ?_⟩
    · refine Binary.BinaryLoader.validateProgram_eq_ok.mpr ⟨rfl, rfl, hne, ?_, rfl, hal, ?_, rfl,
        nofun⟩
      · exact hmod
      · exact hpos
    · rw [Memory.size_reset, hsize]
      show 512 + code.length ≤ 4096
      omega
    · exact Nat.zero_le _
    · exact Binary.rangesOverlap_eq_false.mpr (.inr (.inl rfl))
    · simp [Binary.BinaryLoader.loadedMemory, executableOfCode, codeMemory, Memory.splice]
  have hbne : (code.length != 0) = true := by
    rw [bne_iff_ne]
    omega
  simp only [loadBinaryProgram, bind_apply, modify_apply, get_apply, lift_apply, CPUState.reset,
    kDefaultBinaryCodeBase, hload, hbne]
  rfl

/-- The memory keeps its size when the code is loaded. -/
theorem size_codeMemory {cpu : CPU W} (hsize : cpu.core.state.memory.size = 4096)
    (hle : code.length ≤ 1536) : (codeMemory cpu code).size = 4096 := by
  have hfit : 512 + code.length ≤ cpu.core.state.memory.reset.size := by
    rw [Memory.size_reset, hsize]
    omega
  rw [codeMemory, Memory.size_splice hfit, Memory.size_reset, hsize]

/-- Freshly loaded, the two CPUs agree. -/
theorem agree_loaded {cpu : CPU W} (hsize : cpu.core.state.memory.size = 4096)
    (hle : code.length ≤ 1536) :
    AgreeState (engineMatching W) (cpu.loadProgram program labels).inUserMode.core
      (loadedCode cpu code).inUserMode.core where
  user := rfl
  user' := rfl
  registers := rfl
  flags := rfl
  sp := rfl
  halted := rfl
  hasError := rfl
  errorMessage := fun _ => rfl
  kernel_sp := rfl
  idle := rfl
  idle' := rfl
  memory_size := (Memory.size_reset _).trans hsize
  memory_size' := size_codeMemory hsize hle
  memory := by
    intro i hi
    have hfit : 512 + code.length ≤ cpu.core.state.memory.reset.size := by
      rw [Memory.size_reset, hsize]
      omega
    refine (Memory.byteAt_splice_of_notMem hfit ?_).symm
    rcases hi with hi | hi
    · exact .inl hi
    · exact .inr (by omega)
  pc := rfl

/-- Freshly loaded, the binary CPU is confined to its code. -/
theorem userContext_loaded {cpu : CPU W} (hsize : cpu.core.state.memory.size = 4096) (n : ℕ)
    (hle : code.length ≤ 1536) :
    UserContext (codeConfinement W n (codeMemory cpu code)) (loadedCode cpu code).inUserMode.core
    where
  privilege := rfl
  memory_size := size_codeMemory hsize hle
  memory := fun _ _ => rfl
  kernel_stack_idle := rfl
  kernel_sp := rfl
  sp_ge := Nat.le_refl 2048
  sp_le := show 2048 ≤ 4000 by omega
  sp_aligned := show 2048 % 8 = 0 from rfl
  pc_ge := Nat.le_refl 512
  pc_le := Nat.le_add_right 512 _
  pc_aligned := rfl
  world := trivial

end CPU

open CPU in
/-- The interpreted CPU and the binary CPU execute every comparable program in lock step. -/
theorem engines_agree [LongDouble] (world : W) (bus : Option (MMIOBus W))
    (devices : List (ClockedDevice W)) (program : List Instruction) (labels : LabelTable)
    (code : List UInt8) (hpos : 1 ≤ program.length) (hle : program.length ≤ 64)
    (hkinds : ∀ i ∈ program, i.opcode ∉ [.CALL, .RET, .INT, .IRET])
    (hlabels : ∀ i ∈ program, LabelInside labels program.length i.dst
      ∧ LabelInside labels program.length i.src)
    (hbranches : ∀ i ∈ program, i.opcode ∈ [.JE, .JNE, .JG, .JL] →
      ∀ address, i.dst = .memoryAddress address → address.toNat < 2 ^ 63)
    (hcode : encodeProgram program labels = .ok code) :
    ∃ loaded, loadBinaryProgram (executableOfCode code) (connected world bus devices)
        = (.ok (), loaded)
      ∧ ∀ n, SameExecution
        (steps n ((connected world bus devices).loadProgram program labels).inUserMode)
        (steps n loaded.inUserMode) := by
  have hlen : code.length = 24 * program.length := (encodeProgram_eq_ok hcode).1
  have hsize : (connected world bus devices).core.state.memory.size = 4096 :=
    Memory.size_ofSize 4096
  have hnone : (connected world bus devices).setup.interruptController = none := rfl
  have hhandler : (connected world bus devices).setup.softwareInterruptHandler = none := rfl
  generalize connected world bus devices = cpu at *
  refine ⟨loadedCode cpu code, loadBinaryProgram_executableOfCode (by omega) (by omega) (by omega)
    hsize, fun n => ?_⟩
  have hfit : 512 + code.length ≤ cpu.core.state.memory.reset.size := by
    rw [Memory.size_reset, hsize]
    omega
  have hmem : (codeMemory cpu code).slice 512 (24 * program.length) = code := by
    rw [codeMemory, ← hlen]
    exact Memory.slice_splice_self hfit
  -- The program is one both engines can run.
  have hcomparable : Comparable program labels := by
    refine ⟨hkinds, hlabels, fun i hi hb hhuge => ?_⟩
    have hbranch := hbranches i hi (by simpa [IsBranch] using hb)
    cases hd : i.dst with
    | memoryAddress address =>
      rw [hd] at hhuge
      exact absurd (hbranch address hd) (Nat.not_lt.mpr hhuge)
    | _ => rw [hd] at hhuge; exact hhuge.elim
  have hpair : EnginePair program labels code (cpu.loadProgram program labels).setup
      (loadedCode cpu code).setup := by
    refine ⟨hcomparable, hcode, ⟨rfl, rfl, rfl, ?_, rfl, rfl⟩,
      ⟨rfl, rfl, hlen, rfl, rfl, ?_, by omega, by omega⟩, rfl, rfl, hnone, hnone, hhandler⟩
    · show (!program.isEmpty) = true
      simp [List.ne_nil_of_length_pos hpos]
    · show 512 + code.length = _
      rw [hlen]
  -- The loaded engines are in step; the run lemma does the rest.
  exact sameExecution_of_inLockStep (steps_inLockStep hpair hmem (size_codeMemory hsize (by omega)) n
    ⟨rfl, rfl, agree_loaded hsize (by omega), fun _ => rfl, userContext_loaded hsize _ (by omega)⟩)

/-- A conditional branch to a direct memory address that is negative as a signed word. -/
def hugeBranch : List Instruction := [⟨.JE, .memoryAddress (BitVec.twoPow 64 63), .none⟩]

open CPU in
/-- The branch is not taken: the interpreted CPU goes on and the binary CPU faults. -/
theorem engines_differ_on_hugeBranch :
    letI : LongDouble := LongDouble.x87
    (∀ i ∈ hugeBranch, i.opcode ∉ [.CALL, .RET, .INT, .IRET]
        ∧ LabelInside [] hugeBranch.length i.dst ∧ LabelInside [] hugeBranch.length i.src)
      ∧ ∃ code loaded, encodeProgram hugeBranch [] = .ok code
        ∧ loadBinaryProgram (executableOfCode code) (connected () none []) = (.ok (), loaded)
        ∧ (steps 1 ((connected () none []).loadProgram hugeBranch []).inUserMode).core.state.hasError
          = false
        ∧ (steps 1 loaded.inUserMode).core.state.hasError = true := by
  refine ⟨?_, _, _, rfl, loadBinaryProgram_executableOfCode ?_ ?_ ?_ (Memory.size_ofSize 4096), ?_,
    ?_⟩
  · intro i hi
    obtain rfl := List.mem_singleton.mp hi
    exact ⟨by decide, trivial, trivial⟩
  · decide
  · decide
  · decide
  · decide +kernel
  · decide +kernel

/-- Push a constant and loop while it is not zero. -/
def pushLoop : List Instruction :=
  [⟨.PUSH, .immediate 7, .none⟩, ⟨.CMP, .immediate 7, .immediate 0⟩, ⟨.JNE, .label "top", .none⟩]

open CPU in
/-- A loop that pushes until the stack is full. -/
theorem engines_agree_pushLoop :
    letI : LongDouble := LongDouble.x87
    ∃ code loaded, encodeProgram pushLoop [("top", 0)] = .ok code
      ∧ loadBinaryProgram (executableOfCode code) (connected () none []) = (.ok (), loaded)
      ∧ SameExecution
        (steps 5 ((connected () none []).loadProgram pushLoop [("top", 0)]).inUserMode)
        (steps 5 loaded.inUserMode) := by
  obtain ⟨code, hcode⟩ : ∃ code, encodeProgram pushLoop [("top", 0)] = .ok code := ⟨_, rfl⟩
  obtain ⟨loaded, hload, hsame⟩ := @engines_agree _ LongDouble.x87 () none [] pushLoop [("top", 0)]
    code (by decide) (by decide) (by decide)
    (by simp [pushLoop, LabelInside]) (by simp [pushLoop]) hcode
  exact ⟨code, loaded, hcode, hload, hsame 5⟩

end ZeroCpu
