import ZeroCpu.Core.Branches
import ZeroCpu.Core.StepConformance
import ZeroCpu.Trace.Changes

/-!
# The branches a trace reports

Reference: `include/zero_cpu/trace/TraceEvent.hpp`, `src/trace/TraceEvent.cpp`.

A `TraceEvent` evaluates the condition of a conditional branch again, from the FLAGS before the step.
Its conditions of `JG` and `JL` look at the sign alone, where the CPU compares it with the overflow
flag, so the two part ways after an overflow.
-/

namespace ZeroCpu

open Library

variable {W : Type}

/-- The members of `ControlFlowTraceDetail` that a conditional branch sets. -/
structure ControlFlowTraceDetail where
  active : Bool := false
  operation : Str := []
  operand_text : Str := []
  condition : Str := []
  note : Str := []
  from_pc : ℕ := 0
  to_pc : ℕ := 0
  target : ℕ := 0
  fallthrough : ℕ := 0
  taken : Bool := false
  has_taken : Bool := false
  has_condition : Bool := false
  has_target : Bool := false
  has_fallthrough : Bool := false
  is_branch : Bool := false
deriving DecidableEq

/-- `Operand::toString`. -/
def Operand.toString : Operand → Str
  | .register reg => registerNameToString reg
  | .immediate value => intToStr value.toInt
  | .memoryAddress address => "[" ++ toStr address.toNat ++ "]"
  | .registerIndirectAddress reg => "[" ++ registerNameToString reg ++ "]"
  | .label name => name
  | .none => "<none>"

/-- The condition as the trace shows it. -/
def controlFlowConditionText : Opcode → Str
  | .JE => "ZF == 1"
  | .JNE => "ZF == 0"
  | .JG => "ZF == 0 && SF == 0"
  | .JL => "SF == 1"
  | _ => []

/-- The condition as the trace evaluates it. -/
def evaluateControlFlowCondition (opcode : Opcode) (flags : Flags) : Bool :=
  match opcode with
  | .JE => flags.zero
  | .JNE => !flags.zero
  | .JG => !flags.zero && !flags.sign
  | .JL => flags.sign
  | _ => true

/-- `tryReadControlFlowTargetOperand`. -/
def readControlFlowTargetOperand : Operand → Option ℕ
  | .immediate value => if value.toInt < 0 then none else some value.toNat
  | _ => none

namespace TraceEvent

/-- Where a conditional branch goes, as far as the event can tell. -/
def withTarget (event : TraceEvent) (detail : ControlFlowTraceDetail) : ControlFlowTraceDetail :=
  match readControlFlowTargetOperand event.instruction.dst with
  | some explicitTarget => { detail with target := explicitTarget, has_target := true }
  | none =>
      if detail.taken then { detail with target := event.after.pc, has_target := true }
      else { detail with note := "branch target is label-based or unavailable when not taken" }

/-- Add the address behind a branch that is not taken. -/
def withFallthrough (event : TraceEvent) (detail : ControlFlowTraceDetail) :
    ControlFlowTraceDetail :=
  if !detail.taken then { detail with fallthrough := event.after.pc, has_fallthrough := true }
  else detail

/-- The detail of a conditional branch before its target is looked for. -/
def branchDetail (event : TraceEvent) : ControlFlowTraceDetail where
  active := true
  operation := "CONDITIONAL_BRANCH"
  operand_text := if event.instruction.dst = .none then [] else event.instruction.dst.toString
  condition := controlFlowConditionText event.instruction.opcode
  from_pc := event.before.pc
  to_pc := event.after.pc
  taken := evaluateControlFlowCondition event.instruction.opcode event.before.flags
  has_taken := true
  has_condition := controlFlowConditionText event.instruction.opcode != []
  is_branch := true

/-- `analyzeControlFlowDetail` on a conditional branch. -/
def controlFlowDetail (event : TraceEvent) : ControlFlowTraceDetail :=
  event.withFallthrough (event.withTarget event.branchDetail)

/-- Adding the target does not change whether the branch is taken. -/
@[simp] theorem taken_withTarget (event : TraceEvent) (detail : ControlFlowTraceDetail) :
    (event.withTarget detail).taken = detail.taken := by
  unfold withTarget
  split
  · rfl
  · split <;> rfl

/-- Adding the target adds no fallthrough. -/
@[simp] theorem has_fallthrough_withTarget (event : TraceEvent) (detail : ControlFlowTraceDetail) :
    (event.withTarget detail).has_fallthrough = detail.has_fallthrough := by
  unfold withTarget
  split
  · rfl
  · split <;> rfl

/-- Adding the fallthrough does not change whether the branch is taken. -/
@[simp] theorem taken_withFallthrough (event : TraceEvent) (detail : ControlFlowTraceDetail) :
    (event.withFallthrough detail).taken = detail.taken := by
  unfold withFallthrough
  split <;> rfl

/-- A fallthrough is added to a branch that is not taken. -/
@[simp] theorem has_fallthrough_withFallthrough (event : TraceEvent)
    (detail : ControlFlowTraceDetail) :
    (event.withFallthrough detail).has_fallthrough = (detail.has_fallthrough || !detail.taken) := by
  unfold withFallthrough
  cases h : detail.taken <;> simp

/-- A branch is reported as taken when the trace's condition holds. -/
theorem taken_controlFlowDetail (event : TraceEvent) :
    event.controlFlowDetail.taken
      = evaluateControlFlowCondition event.instruction.opcode event.before.flags := by
  simp [controlFlowDetail, branchDetail]

/-- The fall-through is reported exactly where the branch is reported as not taken. -/
theorem has_fallthrough_controlFlowDetail (event : TraceEvent) :
    event.controlFlowDetail.has_fallthrough = !event.controlFlowDetail.taken := by
  simp [controlFlowDetail, branchDetail]

end TraceEvent

/-- The trace and the CPU agree on a conditional branch: it asks about the zero flag alone, or there
was no overflow, or the zero flag already decides. -/
def ConditionsAgree (opcode : Opcode) (flags : Flags) : Prop :=
  opcode = .JE ∨ opcode = .JNE ∨ flags.overflow = false ∨ (opcode = .JG ∧ flags.zero = true)

/-- The conditions of the trace and the CPU agree on exactly these flags. -/
theorem evaluate_eq_condition_iff {opcode : Opcode} (hbranch : opcode.isBranch = true)
    (flags : Flags) :
    evaluateControlFlowCondition opcode flags = opcode.condition flags
      ↔ ConditionsAgree opcode flags := by
  unfold ConditionsAgree
  cases opcode with
  | JE => exact iff_of_true rfl (.inl rfl)
  | JNE => exact iff_of_true rfl (.inr (.inl rfl))
  | JG =>
    simp only [evaluateControlFlowCondition, Opcode.condition, signedGreaterThanFromFlags]
    cases flags.zero <;> cases flags.sign <;> cases flags.overflow <;> decide
  | JL =>
    simp only [evaluateControlFlowCondition, Opcode.condition, signedLessThanFromFlags]
    cases flags.zero <;> cases flags.sign <;> cases flags.overflow <;> decide
  | _ => cases hbranch

namespace CPU

open Exec

/-- The address that the operand of a branch denotes, as the trace shows it. -/
def BranchesTo (m : Setup W) (dst : Operand) (pc : ℕ) : Prop :=
  if m.hasBinaryProgram then dst = .immediate (Word.ofSize pc)
  else resolveLabelAddress m dst = .ok pc

/-- What a conditional branch did: it went to its operand's target where its condition held, and to
the next instruction elsewhere. -/
structure Branched (m : Setup W) (event : TraceEvent) : Prop where
  taken : event.instruction.opcode.condition event.before.flags = true →
    BranchesTo m event.instruction.dst event.after.pc
  fallthrough : event.instruction.opcode.condition event.before.flags = false →
    event.after.pc = event.before.pc + if m.hasBinaryProgram then kInstructionSize else 1

variable {m : Setup W} {e : Engine} {s s' : Core W}

/-- A conditional branch that returns has set PC and nothing else. -/
theorem perform_branch_eq_ok [LongDouble] {i : InstructionView} (hbranch : i.opcode.isBranch = true)
    (hs : s.state.halted = false) (h : perform e m i s = (.ok (), s')) :
    (i.opcode.condition s.state.flags = true → i.dst.target = .ok s'.state.pc) ∧
      (i.opcode.condition s.state.flags = false → s'.state.pc = s.state.pc + e.size) := by
  rw [perform_branch hbranch] at h
  cases hcondition : i.opcode.condition s.state.flags with
  | true =>
    refine ⟨fun _ => ?_, fun htaken => Bool.noConfusion htaken⟩
    rw [hcondition, if_pos rfl, perform, bind_of_ok (requireInstructionPrivilege_eq rfl)] at h
    obtain ⟨_, _, hone, h⟩ := Exec.bind_eq_ok.mp h
    obtain ⟨-, rfl⟩ := lift_eq_ok.mp hone
    obtain ⟨target, htarget, h⟩ := lift_bind_eq_ok.mp h
    rw [setPcForExecution, get_bind_eq_ok, lift_bind_eq_ok] at h
    obtain ⟨_, -, h⟩ := h
    obtain rfl := modify_eq_ok.mp h
    exact htarget
  | false =>
    refine ⟨fun htaken => Bool.noConfusion htaken, fun _ => ?_⟩
    rw [hcondition, if_neg Bool.false_ne_true, lift_bind_eq_ok] at h
    obtain ⟨_, -, h⟩ := h
    obtain rfl := modify_eq_ok.mp h
    show (if !s.state.halted then _ else _ : CPUState).pc = _
    rw [hs]
    rfl

/-- The trace shows the address that a branch operand of an encoded instruction denotes. -/
theorem traceInstruction_branch {decoded : DecodedInstruction} {instruction : Instruction}
    (h : traceInstruction m decoded = .ok instruction) :
    instruction.opcode = decoded.opcode ∧
      ∀ target, (decoded.view m).dst.target = .ok target →
        instruction.dst = .immediate (Word.ofSize target) := by
  obtain ⟨dst, hdst, h⟩ := Library.bind_eq_ok.mp h
  obtain ⟨src, hsrc, h⟩ := Library.bind_eq_ok.mp h
  have hdstIs : ∀ target, (decoded.view m).dst.target = .ok target →
      dst = .immediate (Word.ofSize target) := by
    intro target htarget
    simp only [DecodedInstruction.view, binaryView, readBinaryCodeAddress, Library.bind_eq_ok,
      reject_eq_ok, not_not] at htarget
    obtain ⟨_, htype, offset, hoffset, _, -, heq⟩ := htarget
    obtain rfl := Except.ok.inj heq
    rw [htype, traceOperandFromEncoded, hoffset] at hdst
    exact (Except.ok.inj hdst).symm
  split_ifs at h with hnone hsrcNone
  · obtain rfl := Except.ok.inj h
    refine ⟨rfl, fun target htarget => ?_⟩
    rw [hdstIs target htarget] at hnone
    cases hnone
  · obtain rfl := Except.ok.inj h
    exact ⟨rfl, hdstIs⟩
  · obtain rfl := Except.ok.inj h
    exact ⟨rfl, hdstIs⟩

/-- The devices that tick behind an instruction leave the architectural state alone. -/
theorem state_finishInstruction {x : Op W Unit} (h : finishInstruction m x s = (.ok (), s')) :
    ∃ s₁, x s = (.ok (), s₁) ∧ s'.state = s₁.state := by
  obtain ⟨_, s₁, hx, h⟩ := Exec.bind_eq_ok.mp h
  refine ⟨s₁, hx, ?_⟩
  rw [tickUnlessStopped, get_bind_eq_ok] at h
  split_ifs at h
  · obtain ⟨world, -, rfl⟩ := tickDevices_conforms h
    rfl
  · exact congrArg Core.state (pure_eq_ok.mp h).2.symm

/-- An event that a step adds without error is that of a return. -/
theorem finishStep_event {cpu : CPU W} {before : CPUState} {instruction : Instruction}
    {outcome : Except Str Unit × Core W} {event : TraceEvent}
    (htrace : (cpu.finishStep before instruction outcome).trace = cpu.trace ++ [event])
    (hok : (cpu.finishStep before instruction outcome).core.state.hasError = false) :
    ∃ core, outcome = (.ok (), core) ∧ event = ⟨before, instruction, core.state, []⟩ := by
  rcases outcome with ⟨message | _, core⟩
  · cases hok
  · exact ⟨core, rfl, (List.singleton_inj.mp (List.append_cancel_left htrace)).symm⟩

/-- A conditional branch that a step executes without error does what its condition says. -/
theorem branched_of_step [LongDouble] {cpu : CPU W} {event : TraceEvent} (hrun : ¬ cpu.Stopped)
    (htrace : cpu.step.trace = cpu.trace ++ [event]) (hok : cpu.step.core.state.hasError = false)
    (hbranch : event.instruction.opcode.isBranch = true) : Branched cpu.setup event := by
  rcases hservice : servicePendingInterruptIfNeeded cpu.setup cpu.stepCore
    with ⟨message | serviced, core⟩
  · rw [step_of_serviceError hrun hservice] at hok
    cases hok
  · cases serviced with
    | true =>
      -- the event of an interrupt entry shows `INT`
      have hstep : cpu.step = cpu.finishStep cpu.core.state
          ⟨.INT, .immediate (core.state.registers .R0), .none⟩ (.ok (), core) := by
        have hservice' : servicePendingInterruptIfNeeded cpu.setup
          { cpu.core with softwareInterruptObservation := none } = (.ok true, core) := hservice
        have hrun' : ¬ (cpu.core.state.halted = true ∨ cpu.core.state.hasError = true) := hrun
        simp only [step, if_neg hrun', hservice']
      rw [hstep] at htrace hok
      obtain ⟨_, -, rfl⟩ := finishStep_event htrace hok
      cases hbranch
    | false =>
      obtain rfl := servicePending_eq_false hservice
      have hhalted : cpu.stepCore.state.halted = false := (Bool.not_eq_true _).mp (not_or.mp hrun).1
      rw [step_of_running hrun hservice] at htrace hok
      cases hb : cpu.setup.hasBinaryProgram with
      | true =>
        rw [stepInstruction_binary hb] at htrace hok
        rcases hfetch : fetched cpu.setup cpu.stepCore.state with message | ⟨_, instruction⟩
        · rw [hfetch] at hok
          cases hok
        · rw [hfetch] at htrace hok
          obtain ⟨core, hcore, rfl⟩ := finishStep_event htrace hok
          obtain ⟨s₁, hexec, hstate⟩ := state_finishInstruction hcore
          simp only [fetched, Library.bind_eq_ok] at hfetch
          obtain ⟨_, -, _, -, _, -, decoded, -, _, hshown, heq⟩ := hfetch
          obtain ⟨rfl, rfl⟩ := Prod.mk.inj (Except.ok.inj heq)
          obtain ⟨hopcode, htarget⟩ := traceInstruction_branch hshown
          rw [executeBinaryInstruction_eq_perform] at hexec
          rw [hopcode] at hbranch
          obtain ⟨htaken, hnot⟩ := perform_branch_eq_ok (i := decoded.view cpu.setup) hbranch hhalted hexec
          refine ⟨fun hcondition => ?_, fun hcondition => ?_⟩
          · rw [BranchesTo, if_pos hb]
            rw [hopcode] at hcondition
            exact htarget _ (hstate ▸ htaken hcondition)
          · rw [if_pos hb]
            rw [hopcode] at hcondition
            exact hstate ▸ hnot hcondition
      | false =>
        rw [stepInstruction_program hb] at htrace hok
        rcases hfetch : fetchedProgram cpu.setup cpu.stepCore.state with message | instruction
        · rw [hfetch] at hok
          cases hok
        · rw [hfetch] at htrace hok
          obtain ⟨core, hcore, rfl⟩ := finishStep_event htrace hok
          obtain ⟨s₁, hexec, hstate⟩ := state_finishInstruction hcore
          rw [execute_eq_perform] at hexec
          obtain ⟨htaken, hnot⟩ := perform_branch_eq_ok (i := instruction.view cpu.setup) hbranch hhalted hexec
          refine ⟨fun hcondition => ?_, fun hcondition => ?_⟩
          · rw [BranchesTo, if_neg (by simp [hb])]
            exact hstate ▸ htaken hcondition
          · rw [if_neg (by simp [hb])]
            exact hstate ▸ hnot hcondition

/-- On a conditional branch that a step executes without error, the CPU does what its condition
says, and the event reports just that exactly where the two conditions agree. -/
theorem step_reports_branch_iff [LongDouble] (cpu : CPU W) (event : TraceEvent)
    (hrun : ¬ cpu.Stopped) (htrace : cpu.step.trace = cpu.trace ++ [event])
    (hok : cpu.step.core.state.hasError = false)
    (hbranch : event.instruction.opcode.isBranch = true) :
    Branched cpu.setup event ∧
    (((event.controlFlowDetail.taken = true
          ↔ event.instruction.opcode.condition event.before.flags = true) ∧
        (event.controlFlowDetail.has_fallthrough = true
          ↔ ¬ event.instruction.opcode.condition event.before.flags = true))
      ↔ ConditionsAgree event.instruction.opcode event.before.flags) := by
  refine ⟨branched_of_step hrun htrace hok hbranch, ?_⟩
  rw [← evaluate_eq_condition_iff hbranch, TraceEvent.has_fallthrough_controlFlowDetail,
    TraceEvent.taken_controlFlowDetail]
  generalize evaluateControlFlowCondition _ _ = reported
  generalize event.instruction.opcode.condition _ = condition
  cases reported <;> cases condition <;> decide

/-- `MOV R0, INT64_MIN`, `CMP R0, 1` and `JL` to the start. -/
def overflowingLess : CPU Unit :=
  (CPU.new ()).loadProgram
    [⟨.MOV, .register .R0, .immediate (BitVec.intMin 64)⟩, ⟨.CMP, .register .R0, .immediate 1⟩,
      ⟨.JL, .label [108], .none⟩] [([108], 0)]

/-- The CPU goes back to the start, and the event reports a fall-through to there. -/
theorem step_misreports_branch :
    letI : LongDouble := LongDouble.x87
    let cpu := steps 2 overflowingLess
    ∃ event : TraceEvent, cpu.step.trace = cpu.trace ++ [event] ∧
      cpu.step.core.state.hasError = false ∧ event.instruction.opcode = .JL ∧
      event.instruction.opcode.condition event.before.flags = true ∧ event.after.pc = 0 ∧
      event.controlFlowDetail.taken = false ∧ event.controlFlowDetail.has_fallthrough = true :=
  ⟨_, rfl, rfl, rfl, by decide +kernel, rfl, by decide +kernel, by decide +kernel⟩

/-- `CMP R0, 0` and `JL`. -/
def plainLess : CPU Unit :=
  (CPU.new ()).loadProgram
    [⟨.CMP, .register .R0, .immediate 0⟩, ⟨.JL, .label [108], .none⟩] [([108], 0)]

/-- Without an overflow the branch that is not taken is reported so. -/
theorem step_reports_branch_iff_plainLess :
    letI : LongDouble := LongDouble.x87
    let event : TraceEvent :=
      ⟨(steps 1 plainLess).core.state, ⟨.JL, .label [108], .none⟩,
        (steps 2 plainLess).core.state, []⟩
    event.controlFlowDetail.has_fallthrough = true := by
  intro event
  have hreports := (@step_reports_branch_iff _ LongDouble.x87 (@steps _ LongDouble.x87 1 plainLess)
    event (by rintro (h | h) <;> cases h) rfl rfl rfl).2
  have hagree : ConditionsAgree .JL (@steps _ LongDouble.x87 1 plainLess).core.state.flags :=
    .inr (.inr (.inl (by decide +kernel)))
  rw [(hreports.mpr hagree).2]
  decide +kernel

end CPU

end ZeroCpu
