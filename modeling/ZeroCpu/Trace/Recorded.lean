import ZeroCpu.Core.Traps
import ZeroCpu.Trace.Changes

/-!
# What a step leaves unrecorded

The change lists of a `TraceEvent` cover the registers, the four flags and memory up to the smaller
of the two sizes. No instruction, interrupt entry, return or device touches the rest of FLAGS or the
size of memory, so a step is recorded in full; only a host software interrupt handler, which is
handed the whole `CPUState`, could get past the lists.
-/

namespace ZeroCpu

open Library Exec

variable {W : Type}

/-- What change lists leave out is as in `s`; a message is only left behind with an error. -/
structure Unrecorded (s : CPUState) (core : Core W) : Prop where
  reserved : s.flags.SameReserved core.state.flags
  size : core.state.memory.size = s.memory.size
  message : core.state.hasError = false → core.state.errorMessage = []

/-- The handler leaves alone what change lists leave out. The second field is `CPUState`'s own
invariant: `setError` and `clearError` set flag and message together. -/
structure SoftwareInterruptHandler.Recorded (handler : SoftwareInterruptHandler W) : Prop where
  unrecorded : ∀ vector mmioBus (state : CPUState),
    Keeps (fun p : CPUState × W => state.SameUnrecorded p.1) (handler.handle vector mmioBus)
  message : ∀ vector mmioBus,
    Keeps (fun p : CPUState × W => p.1.hasError = false → p.1.errorMessage = [])
      (handler.handle vector mmioBus)

/-- The CPU has no handler, or one that leaves alone what change lists leave out. -/
def Setup.Recorded (m : Setup W) : Prop :=
  ∀ handler, m.softwareInterruptHandler = some handler → handler.Recorded

namespace Unrecorded

open CPU

variable {s : CPUState} {m : Setup W} {e : Engine} {i : InstructionView}

/-- What a trap does leaves alone what change lists leave out. -/
theorem trapClosed (s : CPUState) : Core.TrapClosed (Unrecorded s : Core W → Prop) where
  assign h hstate :=
    { reserved := h.reserved.trans hstate.flags
      size := (congrArg Memory.size hstate.memory).trans h.size
      message := fun herror =>
        hstate.errorMessage.trans (h.message (hstate.hasError.symm.trans herror)) }
  world _ h := { h with }
  moveSp _ h := { h with }
  store value hfit h :=
    { h with
      size := (Memory.size_splice (by rwa [length_leBytes])).trans h.size }
  trap _ _ _ _ _ h := { h with }

/-! ## Host handlers -/

/-- A recorded handler leaves alone what change lists leave out. -/
theorem keeps_serviceHostSoftwareInterrupt (hm : m.Recorded) (vector : UInt8) (returnAddress : ℕ) :
    Keeps (Unrecorded s) (serviceHostSoftwareInterrupt m vector returnAddress) := by
  unfold serviceHostSoftwareInterrupt
  cases hhandler : m.softwareInterruptHandler with
  | none => exact Keeps.pure _
  | some handler =>
    have hrecorded := hm handler hhandler
    have hhandle : Keeps (Unrecorded s)
        (Exec.zoom Core.stateWorldRef (handler.handle vector m.mmioBus)) := by
      intro core h
      have hkeep := hrecorded.unrecorded vector m.mmioBus s (core.state, core.world)
        ⟨h.reserved, h.size⟩
      exact ⟨hkeep.reserved, hkeep.size, hrecorded.message vector m.mmioBus _ h.message⟩
    dsimp only
    split
    · exact Keeps.pure _
    · refine ((trapClosed s).keeps_pushInterruptFrame _).bind fun _ => ((trapClosed s).keeps_setRegister _ _).bind fun _ => ?_
      refine Keeps.bind (hhandle.onError ((trapClosed s).keeps_restoreInterruptFrame _ _)) fun result => ?_
      refine ((trapClosed s).keeps_restoreInterruptFrame _ _).bind fun _ => ?_
      refine Keeps.bind (Keeps.modify fun _ h => { h with }) fun _ => ?_
      split
      · exact Keeps.bind (Keeps.modify fun _ h => { h with }) fun _ => Keeps.pure _
      · exact Keeps.pure _

end Unrecorded

/-! ## Steps -/

namespace CPU

/-- The end of a step appends one event. -/
theorem finishStep_trace (cpu : CPU W) (before : CPUState) (instruction : Instruction)
    (outcome : Except Str Unit × Core W) :
    ∃ message, (cpu.finishStep before instruction outcome).trace
      = cpu.trace ++ [⟨before, instruction, (settle outcome).state, message⟩] := by
  rcases outcome with ⟨message | _, core⟩
  · exact ⟨message, rfl⟩
  · exact ⟨[], rfl⟩

/-- An instruction appends one event, from the state before to the state after. -/
theorem stepInstruction_trace [LongDouble] (cpu : CPU W) (core : Core W) :
    ∃ instruction message, (cpu.stepInstruction core).trace
      = cpu.trace ++ [⟨core.state, instruction, (cpu.stepInstruction core).core.state, message⟩] := by
  unfold stepInstruction
  dsimp only
  split
  · obtain ⟨message, h⟩ := finishStep_trace cpu core.state ⟨.Invalid, .none, .none⟩ (.error _, _)
    exact ⟨_, message, by rw [h, finishStep_core]⟩
  · rename_i instruction core' _
    obtain ⟨message, h⟩ := finishStep_trace cpu core.state instruction _
    exact ⟨instruction, message, by rw [h, finishStep_core]⟩

/-- Turning a throw into an error is recorded. -/
theorem Unrecorded.settle {s : CPUState} {outcome : Except Str Unit × Core W}
    (h : Unrecorded s outcome.2) : Unrecorded s (settle outcome) := by
  rcases outcome with ⟨message | _, core⟩
  · exact ⟨h.reserved, h.size, nofun⟩
  · exact h

/-- A step of a CPU that is not stopped, case by case. -/
theorem step_of_goes [LongDouble] {cpu : CPU W} (h : ¬ cpu.Stopped) :
    cpu.step = match servicePendingInterruptIfNeeded cpu.setup cpu.stepCore with
      | (.ok true, core') =>
          cpu.finishStep cpu.core.state
            ⟨.INT, .immediate (core'.state.registers .R0), .none⟩ (.ok (), core')
      | (.error message, core') =>
          cpu.finishStep cpu.core.state ⟨.INT, .none, .none⟩ (.error message, core')
      | (.ok false, core') => cpu.stepInstruction core' := if_neg h

/-- What one step adds to the trace: nothing when the CPU has stopped, else one event that starts and
ends in the states around the step and leaves out nothing. -/
theorem step_trace [LongDouble] {cpu : CPU W} (hm : cpu.setup.Recorded)
    (hmessage : cpu.core.state.hasError = false → cpu.core.state.errorMessage = []) :
    (cpu.Stopped ∧ cpu.step = cpu)
    ∨ (¬ cpu.Stopped ∧ ∃ event : TraceEvent, cpu.step.trace = cpu.trace ++ [event]
      ∧ event.before = cpu.core.state ∧ event.after = cpu.step.core.state
      ∧ Unrecorded cpu.core.state cpu.step.core) := by
  by_cases hstopped : cpu.Stopped
  · exact .inl ⟨hstopped, step_of_stopped hstopped⟩
  refine .inr ⟨hstopped, ?_⟩
  have hstart : Unrecorded cpu.core.state cpu.stepCore := ⟨.refl _, rfl, hmessage⟩
  have hstep : Unrecorded cpu.core.state cpu.step.core :=
    (Unrecorded.trapClosed cpu.core.state).step (fun _ => Unrecorded.settle)
      (Unrecorded.keeps_serviceHostSoftwareInterrupt hm) hstopped ⟨.refl _, rfl, hmessage⟩
  suffices h : ∃ instruction message, cpu.step.trace
      = cpu.trace ++ [⟨cpu.core.state, instruction, cpu.step.core.state, message⟩] by
    obtain ⟨instruction, message, htrace⟩ := h
    exact ⟨_, htrace, rfl, rfl, hstep⟩
  rw [step_of_goes hstopped]
  -- An interrupt service that throws, one that was entered, or an instruction: each logs one event.
  rcases hout : servicePendingInterruptIfNeeded cpu.setup cpu.stepCore with ⟨message | serviced, core⟩
  · obtain ⟨message', htrace⟩ := finishStep_trace cpu cpu.core.state ⟨.INT, .none, .none⟩
      (.error message, core)
    exact ⟨_, message', by rw [htrace, finishStep_core]⟩
  · cases serviced with
    | true =>
      obtain ⟨message', htrace⟩ := finishStep_trace cpu cpu.core.state
        ⟨.INT, .immediate (core.state.registers .R0), .none⟩ (.ok (), core)
      exact ⟨_, message', by rw [htrace, finishStep_core]⟩
    | false =>
      obtain rfl := servicePending_eq_false hout
      exact stepInstruction_trace cpu cpu.stepCore

/-- A log of events that leads from one state to another and leaves out nothing. -/
structure Logs (first : CPUState) (log : List TraceEvent) (last : CPUState) : Prop where
  leads : Leads TraceEvent.before TraceEvent.after first log last
  recorded : ∀ event ∈ log, event.before.SameUnrecorded event.after

theorem Logs.nil (state : CPUState) : Logs state [] state where
  leads := rfl
  recorded _ h := absurd h List.not_mem_nil

theorem Logs.replay {first last : CPUState} {log : List TraceEvent} (h : Logs first log last) :
    log.foldl MachineView.replay first.view = last.view :=
  h.leads.foldl CPUState.view MachineView.replay fun event hevent => replay_eq_view (h.recorded event hevent)

/-- A log with one more event. -/
theorem Logs.concat {first last : CPUState} {log : List TraceEvent} {event : TraceEvent}
    (h : Logs first log last) (hbefore : event.before = last)
    (hrecorded : event.before.SameUnrecorded event.after) :
    Logs first (log ++ [event]) event.after where
  leads := h.leads.concat hbefore
  recorded other hother := by
    rcases List.mem_append.mp hother with hother | hother
    · exact h.recorded other hother
    · rw [List.mem_singleton.mp hother]
      exact hrecorded

/-- The trace of any number of steps. -/
theorem steps_trace [LongDouble] (n : ℕ) {cpu : CPU W} (hm : cpu.setup.Recorded)
    (hmessage : cpu.core.state.hasError = false → cpu.core.state.errorMessage = []) :
    ∃ log, (steps n cpu).trace = cpu.trace ++ log
      ∧ Logs cpu.core.state log (steps n cpu).core.state := by
  induction n generalizing cpu with
  | zero => exact ⟨[], (List.append_nil _).symm, .nil _⟩
  | succ n ih =>
    show ∃ log, (steps n cpu.step).trace = cpu.trace ++ log
      ∧ Logs cpu.core.state log (steps n cpu.step).core.state
    rcases step_trace hm hmessage with ⟨-, hstep⟩ | ⟨-, event, htrace, hbefore, hafter, hunrecorded⟩
    · rw [hstep]
      exact ih hm hmessage
    · have hm' : cpu.step.setup.Recorded := by rwa [step_setup]
      obtain ⟨log, hlog, hlogs⟩ := ih hm' hunrecorded.message
      refine ⟨event :: log, by rw [hlog, htrace, List.append_assoc, List.singleton_append], ?_, ?_⟩
      · exact ⟨hbefore, hafter ▸ hlogs.leads⟩
      · intro other hother
        rcases List.mem_cons.mp hother with rfl | hother
        · rw [hbefore, hafter]
          exact ⟨hunrecorded.reserved, hunrecorded.size⟩
        · exact hlogs.recorded other hother

end CPU

end ZeroCpu
