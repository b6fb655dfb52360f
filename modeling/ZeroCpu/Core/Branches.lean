import ZeroCpu.Core.Arithmetic

/-!
# Signed comparison branches

Reference: `src/core/CPU.cpp`, `src/core/ALU.cpp`.

`CMP` leaves the flags of a wrapped subtraction; the conditional branches read the signed order of
the operands back from them. A branch that is taken does what `JMP` to its operand does. Both are
stated for the instruction set behind the two engines first.
-/

namespace ZeroCpu

open Library

variable {W : Type}

/-- What a conditional branch asks of the operands compared before it. -/
def Opcode.asks (opcode : Opcode) (lhs rhs : ℤ) : Bool :=
  match opcode with
  | .JE => decide (lhs = rhs)
  | .JNE => decide (lhs ≠ rhs)
  | .JG => decide (lhs > rhs)
  | .JL => decide (lhs < rhs)
  | _ => false

/-- The conditional branches. -/
def Opcode.isBranch (opcode : Opcode) : Bool :=
  opcode == .JE || opcode == .JNE || opcode == .JG || opcode == .JL

/-- The condition of a conditional branch, as the CPU reads it from FLAGS. -/
def Opcode.condition (opcode : Opcode) (flags : Flags) : Bool :=
  match opcode with
  | .JE => flags.zero
  | .JNE => !flags.zero
  | .JG => signedGreaterThanFromFlags flags
  | .JL => signedLessThanFromFlags flags
  | _ => false

/-! ## What FLAGS say after a comparison -/

/-- The zero flag is the result's. -/
theorem zero_applyALUResult (flags : Flags) (result : ALUResult) :
    (applyALUResultToFlags flags result).zero = result.zero := by
  simp [applyALUResultToFlags, Flags.zero, Flags.setOverflow, Flags.setCarry, Flags.setSign,
    Flags.setZero, Flags.test_set, Flags.ZF, Flags.SF, Flags.CF, Flags.OF]

/-- The sign flag is the result's. -/
theorem sign_applyALUResult (flags : Flags) (result : ALUResult) :
    (applyALUResultToFlags flags result).sign = result.sign := by
  simp [applyALUResultToFlags, Flags.sign, Flags.setOverflow, Flags.setCarry, Flags.setSign,
    Flags.test_set, Flags.SF, Flags.CF, Flags.OF]

theorem overflow_applyALUResult (flags : Flags) (result : ALUResult) :
    (applyALUResultToFlags flags result).overflow = result.overflow := by
  simp [applyALUResultToFlags, Flags.overflow, Flags.setOverflow, Flags.test_set, Flags.OF]

/-- The sign of the wrapped difference is wrong exactly when the subtraction overflows. -/
theorem condition_after_compare {opcode : Opcode} (hbranch : opcode.isBranch = true)
    (flags : Flags) (lhs rhs : Word) :
    opcode.condition (applyALUResultToFlags flags (ALU.compare lhs rhs))
      = opcode.asks lhs.toInt rhs.toInt := by
  obtain ⟨hvalue, hzero, hsign, -, hoverflow⟩ := exact_sub lhs rhs
  have hl := BitVec.le_toInt lhs
  have hl' := BitVec.toInt_lt (x := lhs)
  have hr := BitVec.le_toInt rhs
  have hr' := BitVec.toInt_lt (x := rhs)
  have hv := BitVec.le_toInt (ALU.sub lhs rhs).value
  have hv' := BitVec.toInt_lt (x := (ALU.sub lhs rhs).value)
  simp only [Int.ModEq, int64Min, int64Max] at hvalue hoverflow
  -- the difference is the wrapped value, or a multiple of the word size away from it
  have hequal : (ALU.sub lhs rhs).zero = true ↔ lhs.toInt = rhs.toInt := by
    rw [hzero]
    omega
  have hless : (ALU.sub lhs rhs).sign ≠ (ALU.sub lhs rhs).overflow ↔ lhs.toInt < rhs.toInt := by
    rw [ne_eq, Bool.eq_iff_iff, hsign, hoverflow]
    omega
  rw [Bool.eq_iff_iff]
  cases opcode with
  | JE =>
    simp only [Opcode.condition, Opcode.asks, zero_applyALUResult, ALU.compare, decide_eq_true_eq]
    exact hequal
  | JNE =>
    simp only [Opcode.condition, Opcode.asks, zero_applyALUResult, ALU.compare, decide_eq_true_eq,
      Bool.not_eq_true', ne_eq, ← hequal, Bool.not_eq_true]
  | JG =>
    simp only [Opcode.condition, Opcode.asks, signedGreaterThanFromFlags, zero_applyALUResult,
      sign_applyALUResult, overflow_applyALUResult, ALU.compare, Bool.and_eq_true, Bool.not_eq_true',
      beq_iff_eq, decide_eq_true_eq]
    rw [← Bool.not_eq_true, hequal, show (ALU.sub lhs rhs).sign = (ALU.sub lhs rhs).overflow
      ↔ ¬ lhs.toInt < rhs.toInt from hless.not_right]
    omega
  | JL =>
    simp only [Opcode.condition, Opcode.asks, signedLessThanFromFlags, sign_applyALUResult,
      overflow_applyALUResult, ALU.compare, bne_iff_ne, decide_eq_true_eq]
    exact hless
  | _ => cases hbranch

namespace CPU

variable {m : Setup W} {e : Engine} {s s₁ s₂ s' t : Core W}

open Exec

/-! ## The instruction set -/

/-- An instruction open to User code needs no privilege. -/
theorem requireInstructionPrivilege_eq {opcode : Opcode}
    (h : Reference.kernelOnly opcode = false) :
    (requireInstructionPrivilege opcode : Op W Unit) t = (.ok (), t) := by
  unfold requireInstructionPrivilege
  rw [Exec.bind_apply, Exec.get_apply]
  simp only
  split
  · rfl
  · cases opcode with
    | HALT | IRET | EI | DI => cases h
    | _ => rfl

/-- `CMP` leaves the flags of the comparison of the values its operands denote. -/
theorem flags_perform_cmp [LongDouble] {i : InstructionView} {lhs rhs : Word}
    (hop : i.opcode = .CMP) (hlhs : readSource m i.dst s = (.ok lhs, s₁))
    (hrhs : readSource m i.src s₁ = (.ok rhs, s₂)) (h : perform e m i s = (.ok (), s')) :
    s'.state.flags = applyALUResultToFlags s₂.state.flags (ALU.compare lhs rhs) := by
  rw [perform, bind_of_ok (requireInstructionPrivilege_eq (hop ▸ rfl)), hop] at h
  obtain ⟨_, _, htwo, h⟩ := Exec.bind_eq_ok.mp h
  obtain ⟨-, rfl⟩ := lift_eq_ok.mp htwo
  rw [bind_of_ok hlhs, bind_of_ok hrhs] at h
  obtain ⟨_, s₃, hflags, hadvance⟩ := Exec.bind_eq_ok.mp h
  obtain rfl := modify_eq_ok.mp hflags
  obtain rfl := modify_eq_ok.mp hadvance
  show (if _ then _ else _ : CPUState).flags = _
  split <;> rfl

/-- A conditional branch is a jump where its condition holds and goes on elsewhere. -/
theorem perform_branch [LongDouble] {i : InstructionView} (hbranch : i.opcode.isBranch = true) :
    perform e m i t = if i.opcode.condition t.state.flags then perform e m { i with opcode := .JMP } t
      else (do Exec.lift i.oneOperand; advanceUnlessHalted e.size : Op W Unit) t := by
  -- Both sides check the operands first, so only the last step differs.
  have hbody : ∀ taken : Flags → Bool, performBranch taken e m i t
      = if taken t.state.flags then (do Exec.lift i.oneOperand; performJump m i.dst : Op W Unit) t
        else (do Exec.lift i.oneOperand; advanceUnlessHalted e.size : Op W Unit) t := by
    intro taken
    by_cases htaken : taken t.state.flags = true
    · rw [if_pos htaken, performBranch]
      simp only [Exec.bind_apply, Exec.lift_apply, Exec.get_apply]
      rcases i.oneOperand with error | u
      · rfl
      · exact congrFun (if_pos htaken) t
    · rw [if_neg htaken, performBranch]
      simp only [Exec.bind_apply, Exec.lift_apply, Exec.get_apply]
      rcases i.oneOperand with error | u
      · rfl
      · exact congrFun (if_neg htaken) t
  have hjump : perform e m { i with opcode := .JMP } t
      = (do Exec.lift i.oneOperand; performJump m i.dst : Op W Unit) t := by
    rw [perform, bind_of_ok (requireInstructionPrivilege_eq rfl)]
  rw [hjump, ← hbody, perform]
  obtain ⟨opcode, _⟩ := i
  cases opcode with
  | JE | JNE | JG | JL =>
    rw [bind_of_ok (requireInstructionPrivilege_eq rfl)]
    rfl
  | _ => cases hbranch

/-- After a comparison, as long as FLAGS are not assigned again, a conditional branch jumps exactly
when the signed values compare as it asks. -/
theorem perform_branch_after_cmp [LongDouble] {i j : InstructionView} {lhs rhs : Word}
    (hop : i.opcode = .CMP) (hlhs : readSource m i.dst s = (.ok lhs, s₁))
    (hrhs : readSource m i.src s₁ = (.ok rhs, s₂)) (h : perform e m i s = (.ok (), s'))
    (hflags : t.state.flags = s'.state.flags) (hbranch : j.opcode.isBranch = true) :
    perform e m j t = if j.opcode.asks lhs.toInt rhs.toInt
      then perform e m { j with opcode := .JMP } t
      else (do Exec.lift j.oneOperand; advanceUnlessHalted e.size : Op W Unit) t := by
  rw [perform_branch hbranch, hflags, flags_perform_cmp hop hlhs hrhs h,
    condition_after_compare hbranch]

/-- A jump that returns has set PC to its target. -/
theorem perform_jmp_eq_ok [LongDouble] {i : InstructionView}
    (h : perform e m { i with opcode := .JMP } t = (.ok (), s')) : ∃ target, i.dst.target = .ok target
      ∧ s' = t.updateState fun state => { state with pc := target } := by
  rw [perform, bind_of_ok (requireInstructionPrivilege_eq rfl)] at h
  obtain ⟨_, _, hone, h⟩ := Exec.bind_eq_ok.mp h
  obtain ⟨-, rfl⟩ := lift_eq_ok.mp hone
  obtain ⟨target, htarget, h⟩ := Exec.lift_bind_eq_ok.mp h
  obtain ⟨_, _, hallowed, hset⟩ := Exec.bind_eq_ok.mp (Exec.get_bind_eq_ok.mp h)
  obtain ⟨-, rfl⟩ := lift_eq_ok.mp hallowed
  exact ⟨target, htarget, (modify_eq_ok.mp hset).symm⟩

/-- Signed comparison branches are correct in both engines: behind a `CMP` of two values, a
conditional branch does what `JMP` to its operand does exactly when the values compare as it asks, and
only advances PC otherwise. A branch that jumps leaves PC at the address its operand denotes and all
else as it was. -/
theorem signed_branches_correct [LongDouble] (m : Setup W) (s s₁ s₂ s' t : Core W) (lhs rhs : Word)
    (hflags : t.state.flags = s'.state.flags) :
    (∀ cmp branch : Instruction, cmp.opcode = .CMP → branch.opcode.isBranch = true →
      readOperandValue m cmp.dst s = (.ok lhs, s₁) →
      readOperandValue m cmp.src s₁ = (.ok rhs, s₂) →
      execute m cmp s = (.ok (), s') →
      (execute m branch t = if branch.opcode.asks lhs.toInt rhs.toInt
        then execute m { branch with opcode := .JMP } t
        else (do requireSingleOperand branch; advancePcUnlessHalted : Op W Unit) t) ∧
      (branch.opcode.asks lhs.toInt rhs.toInt = true →
        ∀ after, execute m branch t = (.ok (), after) →
          ∃ target, resolveLabelAddress m branch.dst = .ok target
            ∧ after = t.updateState fun state => { state with pc := target })) ∧
    ∀ cmp branch : DecodedInstruction, cmp.opcode = .CMP → branch.opcode.isBranch = true →
      readBinaryOperandValue m cmp.dst_type cmp.dst_payload s = (.ok lhs, s₁) →
      readBinaryOperandValue m cmp.src_type cmp.src_payload s₁ = (.ok rhs, s₂) →
      executeBinaryInstruction m cmp s = (.ok (), s') →
      (executeBinaryInstruction m branch t = if branch.opcode.asks lhs.toInt rhs.toInt
        then executeBinaryInstruction m { branch with opcode := .JMP } t
        else (do requireSingleBinaryOperand branch; advanceBinaryPcUnlessHalted : Op W Unit) t) ∧
      (branch.opcode.asks lhs.toInt rhs.toInt = true →
        ∀ after, executeBinaryInstruction m branch t = (.ok (), after) →
          ∃ target, readBinaryCodeAddress m branch.dst_type branch.dst_payload = .ok target
            ∧ after = t.updateState fun state => { state with pc := target }) := by
  -- The two engines share `perform`, and so the argument.
  constructor
  · intro cmp branch hop hbranch hlhs hrhs h
    rw [readOperandValue_eq] at hlhs hrhs
    rw [execute_eq_perform] at h ⊢
    rw [execute_eq_perform, requireSingleOperand_eq m]
    have hbehind := perform_branch_after_cmp hop hlhs hrhs h hflags
      (j := branch.view m) hbranch
    refine ⟨hbehind, fun hasks after hafter => ?_⟩
    rw [hbehind] at hafter
    exact perform_jmp_eq_ok ((if_pos hasks).symm.trans hafter)
  · intro cmp branch hop hbranch hlhs hrhs h
    rw [readBinaryOperandValue_eq] at hlhs hrhs
    rw [executeBinaryInstruction_eq_perform] at h ⊢
    rw [executeBinaryInstruction_eq_perform, requireSingleBinaryOperand_eq m]
    have hbehind := perform_branch_after_cmp hop hlhs hrhs h hflags
      (j := branch.view m) hbranch
    refine ⟨hbehind, fun hasks after hafter => ?_⟩
    rw [hbehind] at hafter
    exact perform_jmp_eq_ok ((if_pos hasks).symm.trans hafter)

/-- A CPU whose R0 holds the least value and whose R1 holds one, with a label behind the branch. -/
def leastAndOne : CPU Unit :=
  let cpu := (CPU.new ()).loadProgram
    [⟨.CMP, .register .R0, .register .R1⟩, ⟨.JL, .label "less", .none⟩, ⟨.NOP, .none, .none⟩,
      ⟨.HALT, .none, .none⟩] [("less", 3)]
  { cpu with core := { cpu.core with state := { cpu.core.state with
    registers := (RegisterFile.zero.set .R0 (BitVec.intMin 64)).set .R1 1 } } }

/-- The least value is less than one although their difference overflows: `JL` jumps to the label. -/
theorem signed_branches_correct_leastAndOne :
    letI : LongDouble := LongDouble.x87
    let m := leastAndOne.setup
    let compared := (execute m ⟨.CMP, .register .R0, .register .R1⟩ leastAndOne.core).2
    execute m ⟨.JL, .label "less", .none⟩ compared = execute m ⟨.JMP, .label "less", .none⟩ compared
      ∧ ∃ after, execute m ⟨.JL, .label "less", .none⟩ compared = (.ok (), after)
        ∧ after = compared.updateState fun state => { state with pc := 3 } := by
  intro m compared
  obtain ⟨hjumps, htarget⟩ := (@signed_branches_correct Unit LongDouble.x87 m leastAndOne.core
    leastAndOne.core leastAndOne.core compared compared (BitVec.intMin 64) 1 rfl).1
    ⟨.CMP, .register .R0, .register .R1⟩ ⟨.JL, .label "less", .none⟩ rfl rfl rfl rfl rfl
  refine ⟨hjumps, _, hjumps.trans rfl, ?_⟩
  obtain ⟨target, hlabel, hafter⟩ := htarget rfl _ (hjumps.trans rfl)
  obtain rfl : 3 = target := Except.ok.inj hlabel
  exact hafter

end CPU

end ZeroCpu
