import ZeroCpu.Core.Perform

/-!
# A step as fetch, execute and tick

`CPU::step` fetches the instruction twice, once for the trace and once to execute it. Neither fetch
changes the CPU, so a step is one fetch from the state it starts in, then the instruction, then the
clocked devices.
-/

namespace ZeroCpu

open Library

variable {W : Type}

namespace CPU

/-- The instruction a step of a binary program executes, with the one it shows in the trace. -/
def fetched (m : Setup W) (state : CPUState) : Except Str (DecodedInstruction × Instruction) := do
  requireExecutionAddress m state.pc state.privilegeLevel
  reject (isBinaryPcInCode m state.pc = false) "Binary PC is outside loaded code section"
  let instructionBytes ← state.memory.readBytes state.pc kInstructionSize
  let decoded ← InstructionDecoder.decodeInstruction instructionBytes
  let instruction ← traceInstruction m decoded
  pure (decoded, instruction)

/-- The instruction a step of a program of `Instruction`s executes. -/
def fetchedProgram (m : Setup W) (state : CPUState) : Except Str Instruction := do
  requireExecutionAddress m state.pc state.privilegeLevel
  match m.program[state.pc]? with
  | some instruction => .ok instruction
  | none => .error "PC out of program range"

/-- What is left of a step once the instruction is known. -/
def finishInstruction (m : Setup W) (instruction : Op W Unit) : Op W Unit := do
  instruction
  tickUnlessStopped m

/-- Fetching leaves the core alone. -/
theorem fetchBinary_apply (m : Setup W) (core : Core W) :
    fetchBinary m core = (do
      reject (isBinaryPcInCode m core.state.pc = false) "Binary PC is outside loaded code section"
      let instructionBytes ← core.state.memory.readBytes core.state.pc kInstructionSize
      InstructionDecoder.decodeInstruction instructionBytes, core) := by
  simp only [fetchBinary, Exec.bind_apply, Exec.get_apply, Exec.require_apply, Exec.lift_apply]
  cases isBinaryPcInCode m core.state.pc with
  | false => rfl
  | true =>
    rcases core.state.memory.readBytes core.state.pc kInstructionSize with e | bytes <;> rfl

/-- The two fetches of a step of a binary program. -/
theorem fetch_binary_apply (m : Setup W) (core : Core W) :
    ((do requireCurrentPcExecutable m; traceInstructionForCurrentBinaryPc m) : Op W Instruction) core
        = ((fetched m core.state).map Prod.snd, core)
      ∧ ∀ d i, fetched m core.state = .ok (d, i) → fetchBinary m core = (.ok d, core) := by
  have hfetch := fetchBinary_apply m core
  simp only [requireCurrentPcExecutable, traceInstructionForCurrentBinaryPc, fetched,
    Exec.bind_apply, Exec.get_apply, Exec.lift_apply]
  rcases requireExecutionAddress m core.state.pc core.state.privilegeLevel with e | u
  · exact ⟨rfl, fun d i h => by cases h⟩
  · simp only [ok_bind, hfetch]
    generalize reject (isBinaryPcInCode m core.state.pc = false) _ = inside
    rcases inside with e | u
    · exact ⟨rfl, fun d i h => by cases h⟩
    · simp only [ok_bind]
      rcases core.state.memory.readBytes core.state.pc kInstructionSize with e | bytes
      · exact ⟨rfl, fun d i h => by cases h⟩
      · simp only [ok_bind]
        rcases InstructionDecoder.decodeInstruction bytes with e | decoded
        · exact ⟨rfl, fun d i h => by cases h⟩
        · simp only [ok_bind]
          rcases traceInstruction m decoded with e | instruction
          · exact ⟨rfl, fun d i h => by cases h⟩
          · exact ⟨rfl, fun d i h => by cases h; rfl⟩

/-- A step of a binary program that no interrupt precedes. -/
theorem stepInstruction_binary [LongDouble] {cpu : CPU W} (hb : cpu.setup.hasBinaryProgram = true)
    (core : Core W) :
    cpu.stepInstruction core = match fetched cpu.setup core.state with
      | .error message => cpu.finishStep core.state ⟨.Invalid, .none, .none⟩ (.error message, core)
      | .ok (decoded, instruction) => cpu.finishStep core.state instruction
          (finishInstruction cpu.setup (executeBinaryInstruction cpu.setup decoded) core) := by
  obtain ⟨htrace, hdecoded⟩ := fetch_binary_apply cpu.setup core
  simp only [stepInstruction, hb, if_true, htrace]
  cases hf : fetched cpu.setup core.state with
  | error message => rfl
  | ok p =>
    obtain ⟨decoded, instruction⟩ := p
    have hstep : stepBinary cpu.setup core = executeBinaryInstruction cpu.setup decoded core :=
      Exec.bind_of_ok (hdecoded _ _ hf)
    simp only [Except.map, finishInstruction, Exec.bind_apply, hstep]

/-- A step of a program of `Instruction`s that no interrupt precedes. -/
theorem stepInstruction_program [LongDouble] {cpu : CPU W}
    (hb : cpu.setup.hasBinaryProgram = false) (core : Core W) :
    cpu.stepInstruction core = match fetchedProgram cpu.setup core.state with
      | .error message => cpu.finishStep core.state ⟨.Invalid, .none, .none⟩ (.error message, core)
      | .ok instruction => cpu.finishStep core.state instruction
          (finishInstruction cpu.setup (execute cpu.setup instruction) core) := by
  simp only [stepInstruction, hb, Bool.false_eq_true, if_false, requireCurrentPcExecutable,
    fetchProgram, fetchedProgram, finishInstruction, Exec.bind_apply, Exec.get_apply,
    Exec.lift_apply]
  rcases requireExecutionAddress cpu.setup core.state.pc core.state.privilegeLevel with e | u
  · rfl
  · simp only [ok_bind]
    cases cpu.setup.program[core.state.pc]? with
    | none => rfl
    | some instruction => rfl

/-! ## The CPU after a step -/

/-- A step up to the clocked devices: fetch and execute, in either representation. -/
def instructionPart [LongDouble] (m : Setup W) : Op W Unit := fun core =>
  if m.hasBinaryProgram then
    match fetched m core.state with
    | .error message => (.error message, core)
    | .ok (decoded, _) => executeBinaryInstruction m decoded core
  else
    match fetchedProgram m core.state with
    | .error message => (.error message, core)
    | .ok instruction => execute m instruction core

/-- The core a step leaves: what was thrown becomes the CPU's error. -/
def settle : Except Str Unit × Core W → Core W
  | (.ok _, core) => core
  | (.error message, core) => setRuntimeError message core

/-- The end of a step leaves the setup alone. -/
@[simp] theorem finishStep_setup (cpu : CPU W) (before : CPUState) (instruction : Instruction)
    (outcome : Except Str Unit × Core W) :
    (cpu.finishStep before instruction outcome).setup = cpu.setup := by
  rcases outcome with ⟨_ | _, _⟩ <;> rfl

/-- The end of a step settles the outcome. -/
@[simp] theorem finishStep_core (cpu : CPU W) (before : CPUState) (instruction : Instruction)
    (outcome : Except Str Unit × Core W) :
    (cpu.finishStep before instruction outcome).core = settle outcome := by
  rcases outcome with ⟨_ | _, _⟩ <;> rfl

/-- A step that no interrupt precedes, in either representation. -/
theorem stepInstruction_core [LongDouble] (cpu : CPU W) (core : Core W) :
    (cpu.stepInstruction core).core
      = settle (finishInstruction cpu.setup (instructionPart cpu.setup) core) := by
  cases hb : cpu.setup.hasBinaryProgram with
  | true =>
    rw [stepInstruction_binary hb]
    simp only [finishInstruction, instructionPart, Exec.bind_apply, hb, if_true]
    cases fetched cpu.setup core.state with
    | error message => rfl
    | ok p => exact finishStep_core _ _ _ _
  | false =>
    rw [stepInstruction_program hb]
    simp only [finishInstruction, instructionPart, Exec.bind_apply, hb, Bool.false_eq_true, if_false]
    cases fetchedProgram cpu.setup core.state with
    | error message => rfl
    | ok instruction => exact finishStep_core _ _ _ _

/-- An instruction leaves the setup alone. -/
@[simp] theorem stepInstruction_setup [LongDouble] (cpu : CPU W) (core : Core W) :
    (cpu.stepInstruction core).setup = cpu.setup := by
  unfold stepInstruction
  simp only
  split <;> exact finishStep_setup _ _ _ _

/-- A step leaves the setup alone. -/
@[simp] theorem step_setup [LongDouble] (cpu : CPU W) : cpu.step.setup = cpu.setup := by
  unfold step
  split_ifs
  · rfl
  · dsimp only
    split
    · exact finishStep_setup _ _ _ _
    · exact finishStep_setup _ _ _ _
    · exact stepInstruction_setup _ _

theorem step_of_stopped [LongDouble] {cpu : CPU W}
    (h : cpu.core.state.halted = true ∨ cpu.core.state.hasError = true) : cpu.step = cpu :=
  if_pos h

/-- A step that no interrupt precedes executes an instruction. -/
theorem step_of_running [LongDouble] {cpu : CPU W}
    (h : ¬ (cpu.core.state.halted = true ∨ cpu.core.state.hasError = true)) {core : Core W}
    (hs : servicePendingInterruptIfNeeded cpu.setup
      { cpu.core with softwareInterruptObservation := none } = (.ok false, core)) :
    cpu.step = cpu.stepInstruction core := by
  simp only [step, if_neg h, hs]

/-- A step that fails to enter the handler of a pending request. -/
theorem step_of_serviceError [LongDouble] {cpu : CPU W}
    (h : ¬ (cpu.core.state.halted = true ∨ cpu.core.state.hasError = true)) {message : Str}
    {core : Core W} (hs : servicePendingInterruptIfNeeded cpu.setup
      { cpu.core with softwareInterruptObservation := none } = (.error message, core)) :
    cpu.step.core = setRuntimeError message core := by
  simp only [step, if_neg h, hs, finishStep]

/-! ## Steps and pending interrupts -/

/-- No interrupt request is deliverable. -/
def NoPending (cpu : CPU W) : Prop :=
  ∀ r, cpu.setup.interruptController = some r → (r.get cpu.core.world).hasPending = false

/-- The core a step starts from: the record of the last software interrupt is cleared. -/
def stepCore (cpu : CPU W) : Core W := { cpu.core with softwareInterruptObservation := none }

/-- A CPU that has stopped does not step. -/
def Stopped (cpu : CPU W) : Prop :=
  cpu.core.state.halted = true ∨ cpu.core.state.hasError = true

/-- A step of the CPU enters the handler of a pending request. -/
def ServicesPending (cpu : CPU W) : Prop :=
  ∃ core, servicePendingInterruptIfNeeded cpu.setup cpu.stepCore = (.ok true, core)

/-- Without a pending request none is taken. -/
theorem servicePending_of_noPending {cpu : CPU W} (hpending : cpu.NoPending) :
    servicePendingInterruptIfNeeded cpu.setup cpu.stepCore = (.ok false, cpu.stepCore) := by
  simp only [servicePendingInterruptIfNeeded, Exec.bind_apply, Exec.get_apply]
  cases hr : cpu.setup.interruptController with
  | none => rfl
  | some r =>
    have hnone : (r.get cpu.stepCore.world).hasPending = false := hpending r hr
    simp only [hnone]
    rfl

/-- A step that enters the handler of a pending request does nothing else. -/
theorem step_core_of_service [LongDouble] {cpu : CPU W} {core : Core W} (hrun : ¬ cpu.Stopped)
    (hs : servicePendingInterruptIfNeeded cpu.setup cpu.stepCore = (.ok true, core)) :
    cpu.step.core = core := by
  have hs' : servicePendingInterruptIfNeeded cpu.setup
    { cpu.core with softwareInterruptObservation := none } = (.ok true, core) := hs
  have hrun' : ¬ (cpu.core.state.halted = true ∨ cpu.core.state.hasError = true) := hrun
  simp only [step, if_neg hrun', hs', finishStep]

/-- A service that finds no request changes nothing. -/
theorem servicePending_eq_false {m : Setup W} {core core' : Core W}
    (h : servicePendingInterruptIfNeeded m core = (.ok false, core')) : core' = core := by
  unfold servicePendingInterruptIfNeeded at h
  simp only [↓Exec.get_bind_eq_ok] at h
  cases hr : m.interruptController with
  | none =>
    rw [hr] at h
    exact (Exec.pure_eq_ok.mp h).2.symm
  | some r =>
    rw [hr] at h
    dsimp only at h
    split_ifs at h with hnone
    · exact (Exec.pure_eq_ok.mp h).2.symm
    all_goals
      simp only [↓Exec.lift_bind_eq_ok, ↓Exec.modify_bind_eq_ok, Exec.bind_eq_ok, Exec.pure_eq_ok,
        Bool.true_eq_false, false_and, and_false, exists_false] at h

/-- The core after a step without a pending request. -/
theorem step_core [LongDouble] {cpu : CPU W} (hrun : ¬ cpu.Stopped) (hpending : cpu.NoPending) :
    cpu.step.core
      = settle (finishInstruction cpu.setup (instructionPart cpu.setup) cpu.stepCore) := by
  rw [step_of_running hrun (servicePending_of_noPending hpending), stepInstruction_core]

end CPU

end ZeroCpu
