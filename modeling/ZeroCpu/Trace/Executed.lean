import ZeroCpu.Trace.ControlFlow
import ZeroCpu.Trace.Recorded

/-!
# What an event shows of the instruction its step executed

Reference: `src/core/CPU.cpp`, `src/trace/TraceEvent.cpp`.

The instruction in a trace event is decoded on its own, ahead of the execution. Here it is tied to
the instruction of the reference that the step carries out: the same opcode, operands in which a
code address shows as an immediate or a label, and the states before and after. What a trace detail
says can then be compared with the reference's effect, for both engines at once.
-/

namespace ZeroCpu

open Library

variable {W : Type}

/-- How a trace shows an operand of the reference. -/
inductive Shows : Operand → Reference.Operand → Prop
  | none : Shows .none .none
  | register (reg : RegisterName) : Shows (.register reg) (.register reg)
  | immediate (value : Word) : Shows (.immediate value) (.immediate value)
  | memory (address : Word) : Shows (.memoryAddress address) (.memory address.toNat)
  | indirect (reg : RegisterName) : Shows (.registerIndirectAddress reg) (.indirect reg)
  | relocated (shown : Word) (address : ℕ) : Shows (.immediate shown) (.code address)
  | label (name : Str) (address : ℕ) : Shows (.label name) (.code address)
  | malformed (operand : Operand) : Shows operand .malformed

/-- What shows a register is that register. -/
theorem Shows.eq_register {operand : Operand} {reg : RegisterName}
    (h : Shows operand (.register reg)) : operand = .register reg := by
  cases h
  rfl

/-- The reference's operand shows the trace's. -/
theorem shows_ofOperand (m : Setup W) (operand : Operand) :
    Shows operand (Reference.Operand.ofOperand m operand) := by
  cases operand with
  | none => exact .none
  | register reg => exact .register reg
  | immediate value => exact .immediate value
  | memoryAddress address => exact .memory address
  | registerIndirectAddress reg => exact .indirect reg
  | label name =>
    simp only [Reference.Operand.ofOperand]
    cases m.labels.lookup name with
    | none => exact .malformed _
    | some index => exact .label name index

namespace CPU

open Exec

/-- The reference's encoded operand shows the trace's. -/
theorem shows_ofEncoded {m : Setup W} {type : EncodedOperandType} {payload : Word}
    {operand : Operand} (h : traceOperandFromEncoded m type payload = .ok operand) :
    Shows operand (Reference.Operand.ofEncoded m type payload) := by
  cases type with
  | None =>
    obtain rfl := Except.ok.inj h
    simp only [Reference.Operand.ofEncoded]
    split_ifs
    · exact .none
    · exact .malformed _
  | Register =>
    obtain ⟨reg, hreg, h⟩ := Library.bind_eq_ok.mp h
    obtain rfl := Except.ok.inj h
    simp only [Reference.Operand.ofEncoded, decodeBinaryRegister_eq_ok hreg]
    exact .register reg
  | Immediate =>
    obtain rfl := Except.ok.inj h
    exact .immediate payload
  | MemoryAddress =>
    obtain ⟨_, hnonneg, h⟩ := Library.bind_eq_ok.mp h
    obtain rfl := Except.ok.inj h
    rw [Reference.Operand.ofEncoded, if_neg (reject_eq_ok.mp hnonneg)]
    exact .memory payload
  | RegisterIndirectAddress =>
    obtain ⟨reg, hreg, h⟩ := Library.bind_eq_ok.mp h
    obtain rfl := Except.ok.inj h
    simp only [Reference.Operand.ofEncoded, decodeBinaryRegister_eq_ok hreg]
    exact .indirect reg
  | CodeAddress =>
    obtain ⟨offset, -, h⟩ := Library.bind_eq_ok.mp h
    obtain rfl := Except.ok.inj h
    simp only [Reference.Operand.ofEncoded]
    split_ifs
    · exact .malformed _
    · exact .relocated _ _

/-- The instruction shown for an encoded one. A source behind no destination is dropped. -/
theorem traceInstruction_shows {m : Setup W} {decoded : DecodedInstruction}
    {instruction : Instruction} (h : traceInstruction m decoded = .ok instruction) :
    instruction.opcode = decoded.opcode
      ∧ Shows instruction.dst (Reference.Instruction.ofDecoded m decoded).dst
      ∧ (instruction.dst ≠ .none →
          Shows instruction.src (Reference.Instruction.ofDecoded m decoded).src) := by
  obtain ⟨dst, hdst, h⟩ := Library.bind_eq_ok.mp h
  obtain ⟨src, hsrc, h⟩ := Library.bind_eq_ok.mp h
  have hdst' := shows_ofEncoded hdst
  have hsrc' := shows_ofEncoded hsrc
  split_ifs at h with hnone hsrcNone
  · obtain rfl := Except.ok.inj h
    exact ⟨rfl, hnone ▸ hdst', fun hne => absurd rfl hne⟩
  · obtain rfl := Except.ok.inj h
    exact ⟨rfl, hdst', fun _ => hsrcNone ▸ hsrc'⟩
  · obtain rfl := Except.ok.inj h
    exact ⟨rfl, hdst', fun _ => hsrc'⟩

/-- A step has carried out the instruction `i`, which is `r` of the reference, up to the clocked
devices, and `event` is about it. -/
structure Executes [LongDouble] (cpu : CPU W) (event : TraceEvent) (e : Engine)
    (i : InstructionView) (r : Reference.Instruction) (after : Core W) : Prop where
  performed : perform e cpu.setup i cpu.stepCore = (.ok (), after)
  running : cpu.core.state.halted = false
  size : e.size = Reference.instructionSize cpu.setup
  denotes : i.Denotes r
  before : event.before = cpu.core.state
  after : event.after = after.state
  opcode : event.instruction.opcode = r.opcode
  dst : Shows event.instruction.dst r.dst
  src : event.instruction.dst ≠ .none → Shows event.instruction.src r.src

/-- Only `INT` asks for a software interrupt handler. -/
theorem perform_softwareInterruptHandler [LongDouble] (e : Engine) (m : Setup W)
    (handler : Option (SoftwareInterruptHandler W)) {i : InstructionView} (hint : i.opcode ≠ .INT) :
    perform e { m with softwareInterruptHandler := handler } i = perform e m i := by
  unfold perform
  cases hop : i.opcode with
  | INT => exact absurd hop hint
  | _ => rfl

/-- Away from `INT`, an instruction that returns does what the reference prescribes, whatever
software interrupt handler there is. -/
theorem perform_conforms_of_ne_int [LongDouble] {e : Engine} {m : Setup W} {i : InstructionView}
    {r : Reference.Instruction} {s s' : Core W} {u : Unit} (hs : s.state.halted = false)
    (hi : i.Denotes r) (hint : i.opcode ≠ .INT) (h : perform e m i s = (.ok u, s')) :
    Reference.exec mulDetected m (s.state.pc + e.size) r s = some s' := by
  rw [← perform_softwareInterruptHandler e m none hint] at h
  have hexec := perform_conforms (m := { m with softwareInterruptHandler := none }) hs hi rfl h
  have hsame : Reference.exec mulDetected { m with softwareInterruptHandler := none }
      (s.state.pc + e.size) r s = Reference.exec mulDetected m (s.state.pc + e.size) r s := by
    unfold Reference.exec Reference.effect
    cases r.opcode <;> rfl
  exact hsame ▸ hexec

/-- Where no interrupt comes first, a step of a binary program without error carries out the
instruction at PC. -/
theorem executes_fetched [LongDouble] {cpu : CPU W} {event : TraceEvent} (hrun : ¬ cpu.Stopped)
    (hservice : servicePendingInterruptIfNeeded cpu.setup cpu.stepCore = (.ok false, cpu.stepCore))
    (hb : cpu.setup.hasBinaryProgram = true) (htrace : cpu.step.trace = cpu.trace ++ [event])
    (hok : cpu.step.core.state.hasError = false) :
    ∃ decoded e i after, fetched cpu.setup cpu.core.state = .ok (decoded, event.instruction)
      ∧ Executes cpu event e i (Reference.Instruction.ofDecoded cpu.setup decoded) after := by
  have hhalted : cpu.stepCore.state.halted = false := (Bool.not_eq_true _).mp (not_or.mp hrun).1
  have hsize : Reference.instructionSize cpu.setup = 24 := if_pos hb
  rw [step_of_running hrun hservice, stepInstruction_binary hb] at htrace hok
  rcases hfetch : fetched cpu.setup cpu.stepCore.state with message | ⟨_, instruction⟩
  · rw [hfetch] at hok
    cases hok
  · rw [hfetch] at htrace hok
    obtain ⟨core, hcore, rfl⟩ := finishStep_event htrace hok
    obtain ⟨s₁, hexec, hstate⟩ := state_finishInstruction hcore
    obtain ⟨_, -, h⟩ := Library.bind_eq_ok.mp hfetch
    obtain ⟨_, -, h⟩ := Library.bind_eq_ok.mp h
    obtain ⟨_, -, h⟩ := Library.bind_eq_ok.mp h
    obtain ⟨decoded, -, h⟩ := Library.bind_eq_ok.mp h
    obtain ⟨_, hshown, heq⟩ := Library.bind_eq_ok.mp h
    obtain ⟨rfl, rfl⟩ := Prod.mk.inj (Except.ok.inj heq)
    obtain ⟨hopcode, hdst, hsrc⟩ := traceInstruction_shows hshown
    rw [executeBinaryInstruction_eq_perform] at hexec
    exact ⟨_, _, _, s₁, hfetch, ⟨hexec, hhalted, hsize.symm,
      DecodedInstruction.view_denotes cpu.setup decoded, rfl, hstate, hopcode, hdst, hsrc⟩⟩

/-- The same for a program of `Instruction`s. -/
theorem executes_fetchedProgram [LongDouble] {cpu : CPU W} {event : TraceEvent}
    (hrun : ¬ cpu.Stopped)
    (hservice : servicePendingInterruptIfNeeded cpu.setup cpu.stepCore = (.ok false, cpu.stepCore))
    (hb : cpu.setup.hasBinaryProgram = false) (htrace : cpu.step.trace = cpu.trace ++ [event])
    (hok : cpu.step.core.state.hasError = false) :
    ∃ e i r after, Executes cpu event e i r after := by
  have hhalted : cpu.stepCore.state.halted = false := (Bool.not_eq_true _).mp (not_or.mp hrun).1
  have hsize : Reference.instructionSize cpu.setup = 1 := if_neg (by simp [hb])
  rw [step_of_running hrun hservice, stepInstruction_program hb] at htrace hok
  rcases hfetch : fetchedProgram cpu.setup cpu.stepCore.state with message | instruction
  · rw [hfetch] at hok
    cases hok
  · rw [hfetch] at htrace hok
    obtain ⟨core, hcore, rfl⟩ := finishStep_event htrace hok
    obtain ⟨s₁, hexec, hstate⟩ := state_finishInstruction hcore
    rw [execute_eq_perform] at hexec
    exact ⟨_, _, Reference.Instruction.ofInstruction cpu.setup instruction, s₁, ⟨hexec, hhalted,
      hsize.symm, Instruction.view_denotes cpu.setup instruction, rfl, hstate, rfl,
      shows_ofOperand _ _, fun _ => shows_ofOperand _ _⟩⟩

/-- An event that a step adds without error, and that does not show `INT`, is about an instruction
of the reference that the step carried out. -/
theorem executes_of_step [LongDouble] {cpu : CPU W} {event : TraceEvent} (hrun : ¬ cpu.Stopped)
    (htrace : cpu.step.trace = cpu.trace ++ [event]) (hok : cpu.step.core.state.hasError = false)
    (hint : event.instruction.opcode ≠ .INT) :
    ∃ e i r after, Executes cpu event e i r after := by
  rcases hservice : servicePendingInterruptIfNeeded cpu.setup cpu.stepCore
    with ⟨message | serviced, core⟩
  · rw [step_of_serviceError hrun hservice] at hok
    cases hok
  · cases serviced with
    | true =>
      -- the event of an interrupt entry shows `INT`
      have hstep : cpu.step = cpu.finishStep cpu.core.state
          ⟨.INT, .immediate (core.state.registers .R0), .none⟩ (.ok (), core) := by
        have hservice' : servicePendingInterruptIfNeeded cpu.setup
          { cpu.core with softwareInterruptObservation := none } = (.ok true, core) := hservice
        have hrun' : ¬ (cpu.core.state.halted = true ∨ cpu.core.state.hasError = true) := hrun
        simp only [step, if_neg hrun', hservice']
      rw [hstep] at htrace hok
      obtain ⟨_, -, rfl⟩ := finishStep_event htrace hok
      exact absurd rfl hint
    | false =>
      obtain rfl := servicePending_eq_false hservice
      cases hb : cpu.setup.hasBinaryProgram with
      | true =>
        obtain ⟨decoded, e, i, after, -, h⟩ := executes_fetched hrun hservice hb htrace hok
        exact ⟨e, i, _, after, h⟩
      | false => exact executes_fetchedProgram hrun hservice hb htrace hok

/-- The event of a step of a CPU that has not stopped, with the instruction that the trace ends in. -/
theorem exists_event_of_step [LongDouble] {cpu : CPU W} (hm : cpu.setup.Recorded)
    (hmessage : cpu.core.state.errorMessage = []) (hrun : ¬ cpu.Stopped) {instruction : Instruction}
    (hlast : cpu.step.trace.getLast?.map TraceEvent.instruction = some instruction) :
    ∃ event : TraceEvent, cpu.step.trace = cpu.trace ++ [event] ∧ event.instruction = instruction
      ∧ event.before = cpu.core.state ∧ event.after = cpu.step.core.state := by
  rcases step_trace hm (fun _ => hmessage) with ⟨hstopped, -⟩ | ⟨-, event, htrace, hbefore, hafter, -⟩
  · exact absurd hstopped hrun
  · rw [htrace, List.getLast?_concat] at hlast
    exact ⟨event, htrace, Option.some.inj hlast, hbefore, hafter⟩

/-- What the reference asks of an instruction that is carried out. -/
theorem Executes.effect [LongDouble] {cpu : CPU W} {event : TraceEvent} {e : Engine}
    {i : InstructionView} {r : Reference.Instruction} {after : Core W}
    (h : Executes cpu event e i r after) (hint : event.instruction.opcode ≠ .INT) :
    r.operandCount = some (Reference.arity r.opcode)
      ∧ Reference.effect mulDetected cpu.setup
        (cpu.core.state.pc + Reference.instructionSize cpu.setup) r cpu.stepCore = some after := by
  have hint' : i.opcode ≠ .INT := by
    rw [h.denotes.opcode, ← h.opcode]
    exact hint
  have hperformed := perform_conforms_of_ne_int (s := cpu.stepCore) h.running h.denotes hint' h.performed
  rw [h.size, Reference.exec] at hperformed
  split_ifs at hperformed with hcount
  exact ⟨not_not.mp hcount, hperformed⟩

end CPU

end ZeroCpu
