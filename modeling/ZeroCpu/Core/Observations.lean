import ZeroCpu.Core.Traps

/-!
# What a step records of a host call

Reference: `src/core/CPU.cpp`, `serviceHostSoftwareInterrupt`.

The record of a host call is written after everything in the call that can fail, and nothing follows
it in its step once the call has halted the CPU. So a record that ends the process is never left next
to an error, and always next to the exit code.
-/

namespace ZeroCpu

open Library Exec

variable {W : Type}

/-- No host call is recorded, and there is no error. -/
structure Unobserved (core : Core W) : Prop where
  observation : core.softwareInterruptObservation = none
  no_error : core.state.hasError = false

/-- A recorded call that ends the process has halted the CPU and left the exit code. -/
def Answers (core : Core W) : Prop :=
  ∀ observation, core.softwareInterruptObservation = some observation →
    observation.result.disposition = .TerminateProcess →
    core.state.halted = true ∧ core.state.hasError = false
      ∧ core.processExitRequest = some observation.result.exit_code

/-- No recorded call ends the process. -/
def Continues (core : Core W) : Prop :=
  ∀ observation, core.softwareInterruptObservation = some observation →
    observation.result.disposition ≠ .TerminateProcess

theorem Continues.answers {core : Core W} (h : Continues core) : Answers core :=
  fun observation hsome hends => absurd hends (h observation hsome)

/-- A core without an observation continues. -/
theorem Unobserved.continues {core : Core W} (h : Unobserved core) : Continues core := by
  intro observation hsome
  rw [h.observation] at hsome
  cases hsome

theorem Unobserved.answers {core : Core W} (h : Unobserved core) : Answers core :=
  h.continues.answers

/-- A trap makes no observation. -/
theorem Unobserved.trapClosed : Core.TrapClosed (Unobserved : Core W → Prop) where
  assign h hstate := ⟨h.observation, hstate.hasError.trans h.no_error⟩
  world _ h := { h with }
  moveSp _ h := { h with }
  store _ _ h := { h with }
  trap _ _ _ _ _ h := { h with }

/-- The handler raises no error of the CPU. -/
def SoftwareInterruptHandler.Quiet (handler : SoftwareInterruptHandler W) : Prop :=
  ∀ vector mmioBus, Keeps (fun p : CPUState × W => p.1.hasError = false)
    (handler.handle vector mmioBus)

/-- The CPU has no handler, or a quiet one. -/
def Setup.Quiet (m : Setup W) : Prop :=
  ∀ handler, m.softwareInterruptHandler = some handler → handler.Quiet

namespace CPU

variable {m : Setup W} {e : Engine} {i : InstructionView}

/-- A served call is observed, and one that is not served is not. -/
theorem observes_serviceHost (hm : m.Quiet) (vector : UInt8) (returnAddress : ℕ) :
    Triple Unobserved (serviceHostSoftwareInterrupt m vector returnAddress)
      (fun serviced core => if serviced then Answers core else Unobserved core)
      (fun _ core => Unobserved core) := by
  have hclosed : Core.TrapClosed (Unobserved : Core W → Prop) := Unobserved.trapClosed
  unfold serviceHostSoftwareInterrupt
  cases hhandler : m.softwareInterruptHandler with
  | none => exact Triple.pure fun _ h => h
  | some handler =>
    have hhandle : Keeps Unobserved (Exec.zoom Core.stateWorldRef (handler.handle vector m.mmioBus)) :=
      fun core h => ⟨h.observation,
        hm handler hhandler vector m.mmioBus (core.state, core.world) h.no_error⟩
    dsimp only
    split
    · exact Triple.pure fun _ h => h
    · refine Triple.bind (hclosed.keeps_pushInterruptFrame _).triple fun _ =>
        Triple.bind (hclosed.keeps_setRegister _ _).triple fun _ => ?_
      refine Triple.bind
        (hhandle.onError (hclosed.keeps_restoreInterruptFrame _ _)).triple fun result => ?_
      refine Triple.bind (hclosed.keeps_restoreInterruptFrame _ _).triple fun _ => ?_
      -- From here on nothing can fail.
      intro core h
      show Post _ _ ((do
        if result.disposition = .TerminateProcess then
          Exec.modify fun core => { core with
            processExitRequest := some result.exit_code
            state := { core.state with halted := true } }
        pure true : Op W Bool) { core with softwareInterruptObservation := some ⟨vector, result⟩ })
      split_ifs with hends
      · show Answers _
        intro observation hsome _
        obtain rfl := Option.some.inj hsome
        exact ⟨rfl, h.no_error, rfl⟩
      · show Answers _
        intro observation hsome hends'
        obtain rfl := Option.some.inj hsome
        exact absurd hends' hends

/-- An instruction leaves a record that answers for itself; one that throws has not recorded the end
of the process. -/
theorem observes_perform [LongDouble] (hm : m.Quiet) :
    Triple Unobserved (perform e m i) (fun _ core => Answers core) (fun _ core => Continues core) := by
  have hclosed : Core.TrapClosed (Unobserved : Core W → Prop) := Unobserved.trapClosed
  have hplain : ∀ {α : Type} {x : Op W α}, Keeps Unobserved x →
      Triple Unobserved x (fun _ core => Answers core) (fun _ core => Continues core) :=
    fun hx => hx.triple.conseq (fun _ h => h) (fun _ _ h => h.answers) fun _ _ h => h.continues
  have hstep : ∀ {α : Type} {x : Op W α}, Keeps Unobserved x →
      Triple Unobserved x (fun _ core => Unobserved core) (fun _ core => Continues core) :=
    fun hx => hx.triple.conseq (fun _ h => h) (fun _ _ h => h) fun _ _ h => h.continues
  -- Only `INT` may leave an observation, and only when the handler served it.
  by_cases hint : i.opcode = .INT
  · refine Triple.bind (hstep (Core.Closed.keeps_privilege _)) fun _ => ?_
    rw [hint]
    refine Triple.bind (hstep (Keeps.lift _)) fun _ => ?_
    cases m.interruptController with
    | none => exact hplain (Keeps.throw _)
    | some r =>
      refine Triple.bind (hstep (hclosed.keeps_readSource _)) fun _ =>
        Triple.bind (hstep (Keeps.lift _)) fun vector => Triple.bind (hstep Keeps.get) fun _ => ?_
      refine Triple.bind ((observes_serviceHost hm _ _).conseq (fun _ h => h) (fun _ _ h => h)
        fun _ _ h => h.continues) fun serviced => ?_
      cases serviced with
      | true => exact Triple.pure fun _ h => h
      | false => exact hplain (hclosed.keeps_enterVectorHandler _ _ _ _ _)
  · by_cases hiret : i.opcode = .IRET
    · refine Triple.bind (hstep (Core.Closed.keeps_privilege _)) fun _ => ?_
      rw [hiret]
      exact Triple.bind (hstep (Keeps.lift _)) fun _ => hplain (hclosed.keeps_restoreInterruptFrame _ _)
    · exact hplain (hclosed.keeps_perform hint hiret)

/-- An instruction observes a call that it answers. -/
theorem observes_instructionPart [LongDouble] (hm : m.Quiet) :
    Triple Unobserved (instructionPart m) (fun _ core => Answers core)
      (fun _ core => Continues core) := by
  intro core h
  unfold instructionPart
  split_ifs
  · cases fetched m core.state with
    | error message => exact h.continues
    | ok p =>
      dsimp only
      rw [executeBinaryInstruction_eq_perform]
      exact observes_perform hm core h
  · cases fetchedProgram m core.state with
    | error message => exact h.continues
    | ok instruction =>
      dsimp only
      rw [execute_eq_perform]
      exact observes_perform hm core h

/-- Ticks make no observation. -/
theorem continues_tickDevices (devices : List (ClockedDevice W)) :
    Keeps Continues (tickDevices devices) := by
  induction devices with
  | nil => exact Keeps.pure _
  | cons device rest ih =>
    refine Keeps.bind ?_ fun _ => ih
    intro core h
    exact h

/-- Devices are only ticked after a call that does not end the process. -/
theorem observes_finishInstruction [LongDouble] (hm : m.Quiet) :
    Triple Unobserved (finishInstruction m (instructionPart m)) (fun _ core => Answers core)
      (fun _ core => Continues core) := by
  refine Triple.bind (observes_instructionPart hm) fun _ => ?_
  intro core h
  show Post _ _ ((if !core.state.halted && !core.state.hasError then tickClockedDevices m
    else pure () : Op W Unit) core)
  split_ifs with hgoes
  · have hcontinues : Continues core := by
      intro observation hsome hends
      rw [(h observation hsome hends).1] at hgoes
      cases hgoes
    exact (continues_tickDevices m.clockedDevices).triple.conseq (fun _ h => h)
      (fun _ _ h => h.answers) (fun _ _ h => h) core hcontinues
  · exact h

/-- Turning a throw into an error answers. -/
theorem answers_settle {outcome : Except Str Unit × Core W}
    (h : Post (fun _ core => Answers core) (fun _ core => Continues core) outcome) :
    Answers (settle outcome) := by
  rcases outcome with ⟨message | u, core⟩
  · exact Continues.answers h
  · exact h

/-- A step of a CPU that has not stopped records at most a call that it answers for. -/
theorem step_answers [LongDouble] {cpu : CPU W} (hm : cpu.setup.Quiet) (hrun : ¬ cpu.Stopped) :
    Answers cpu.step.core := by
  have hstart : Unobserved cpu.stepCore := ⟨rfl, Bool.eq_false_iff.mpr (not_or.mp hrun).2⟩
  have hservice := Unobserved.trapClosed.keeps_servicePendingInterrupt (m := cpu.setup)
    cpu.stepCore hstart
  rcases hout : servicePendingInterruptIfNeeded cpu.setup cpu.stepCore with ⟨message | serviced, core⟩
  · rw [hout] at hservice
    rw [step_of_serviceError hrun hout]
    have hcontinues : Continues (setRuntimeError message core) := hservice.continues
    exact hcontinues.answers
  · cases serviced with
    | true =>
      rw [hout] at hservice
      rw [step_core_of_service hrun hout]
      exact hservice.answers
    | false =>
      obtain rfl := servicePending_eq_false hout
      rw [step_of_running hrun hout, stepInstruction_core]
      exact answers_settle (observes_finishInstruction hm cpu.stepCore hstart)

end CPU

end ZeroCpu
