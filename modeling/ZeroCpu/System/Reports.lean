import ZeroCpu.Kernel.Accounts
import ZeroCpu.System.Residents
import ZeroCpu.System.TraceReplay

/-!
# What a round of the runner reports

Reference: `src/system/MultiProcessRunner.cpp`, `runImages`.

The runner derives the records of a round from lengths, counters and PIDs before and after it. This
file says which records a round adds and how they fit the counters and the table: `Reported`.
-/

namespace ZeroCpu.Sys

open Library Kernel

variable {W H : Type}

/-! ## Handlers -/

/-- The dispatcher is quiet. -/
theorem quiet_protectedSyscallDispatcher (filesystem : Ref W ZeroFS) :
    (protectedSyscallDispatcher filesystem).Quiet := by
  intro vector mmioBus p h
  have hserved := keeps_protectedSyscallDispatcher filesystem vector mmioBus p.1 p (.refl p.1)
  exact hserved.hasError.trans h

/-- An admissible handler is recorded. -/
theorem Admissible.recorded {handler? : Option (SoftwareInterruptHandler (Board H))}
    (h : Admissible handler?) : ∀ handler, handler? = some handler → handler.Recorded := by
  cases h with
  | absent => exact nofun
  | dispatcher filesystem =>
    intro handler hsome
    obtain rfl := Option.some.inj hsome
    exact recorded_protectedSyscallDispatcher _

/-- An admissible handler is quiet. -/
theorem Admissible.quiet {handler? : Option (SoftwareInterruptHandler (Board H))}
    (h : Admissible handler?) : ∀ handler, handler? = some handler → handler.Quiet := by
  cases h with
  | absent => exact nofun
  | dispatcher filesystem =>
    intro handler hsome
    obtain rfl := Option.some.inj hsome
    exact quiet_protectedSyscallDispatcher _

namespace MultiProcessRunner

open ProcessLifecycleManager TimerPreemptiveScheduler

variable {images : List ProcessImage} {options : MultiProcessRunOptions H} {s s' : RunState H}

/-! ## Rounds -/

/-- The record of an event of the round after `s`. -/
def executionOf (s : RunState H) (event : TraceEvent) : ProcessExecutionTraceRecord :=
  ⟨s.lifecycleSteps + 1, s.runtime.table.running_pid, event⟩

/-- The record of a host call in the round after `s`. -/
def callOf (s : RunState H) (observation : SoftwareInterruptObservation) :
    ProcessSoftwareInterruptTraceRecord :=
  ⟨s.lifecycleSteps + 1, s.runtime.table.running_pid, observation⟩

/-- The record of a round from `s` that leaves `pid` on the CPU. -/
def switchOf (s : RunState H) (pid : ProcessId) (preempted ended : Bool) :
    Option ProcessContextSwitchTraceRecord :=
  if s.runtime.table.running_pid ≠ pid then
    some ⟨s.lifecycleSteps + 1, s.runtime.table.running_pid, pid, preempted, ended⟩
  else none

/-- What a round from `s` to `s'` reports: the event and the host call of its CPU step, if there was
one, and a switch when the process on the CPU is another one. -/
structure Reported (s s' : RunState H) (event : Option TraceEvent)
    (observation : Option SoftwareInterruptObservation) (moved : CPU (Board H)) (preempted : Bool)
    (result : ProcessLifecycleStepResult) : Prop where
  pid_ne : s.runtime.table.running_pid ≠ 0
  lifecycleSteps : s'.lifecycleSteps = s.lifecycleSteps + 1
  state : s'.runtimeState = result.state
  accounts : Accounts s.runtime moved preempted result s'.runtime
  executionTrace : s'.executionTrace = s.executionTrace ++ (event.map (executionOf s)).toList
  softwareInterrupts : s'.softwareInterrupts
    = s.softwareInterrupts ++ (observation.map (callOf s)).toList
  contextSwitches : s'.contextSwitches = s.contextSwitches
    ++ (switchOf s s'.runtime.table.running_pid preempted result.process_terminated).toList
  /-- A host call is made in a CPU step, which is traced. -/
  observed : observation.isSome → event.isSome
  /-- A call that ends the process ends it, with the exit code it asked for. -/
  exits : ∀ call, observation = some call → call.result.disposition = .TerminateProcess →
    result.process_terminated = true ∧ result.process_faulted = false
      ∧ moved.core.processExitRequest = some call.result.exit_code
  /-- Only a pending request can keep a round from stepping the CPU and from ending the process. -/
  logged : s.runtime.board.controller.pending = [] →
    event.isSome ∨ result.process_terminated = true

/-- The records of host calls that the runner still has to take from the CPU. -/
structure Cleared (options : MultiProcessRunOptions H) (s : RunState H) : Prop where
  handler : s.runtime.cpu.setup.softwareInterruptHandler = options.software_interrupt_handler
  observation : s.runtime.cpu.core.softwareInterruptObservation = none

/-- A step adds the observation it left, if any, to the report. -/
theorem record_softwareInterrupts {after : Runtime H} {result : ProcessLifecycleStepResult} :
    (record s s.runtime after s.runtime.table.running_pid result).softwareInterrupts
      = s.softwareInterrupts
        ++ (after.cpu.core.softwareInterruptObservation.map (callOf s)).toList := by
  simp only [record]
  cases after.cpu.core.softwareInterruptObservation with
  | none => exact (List.append_nil _).symm
  | some observation => rfl

/-- A step adds the switch it made, if any, to the report. -/
theorem record_contextSwitches {after : Runtime H} {result : ProcessLifecycleStepResult}
    {preempted : Bool}
    (hcount : after.preemptive.preemption_count
      = s.runtime.preemptive.preemption_count + preempted.toNat) :
    (record s s.runtime after s.runtime.table.running_pid result).contextSwitches
      = s.contextSwitches
        ++ (switchOf s after.table.running_pid preempted result.process_terminated).toList := by
  have hafter : (if after.table.hasRunningProcess then after.table.running_pid else 0)
      = after.table.running_pid := by
    split_ifs with h
    · rfl
    · rw [ProcessTable.hasRunningProcess_iff, not_not] at h
      exact h.symm
  have hpreempted : decide (after.preemptive.preemption_count
      > s.runtime.preemptive.preemption_count) = preempted := by
    rw [hcount]
    cases preempted <;> simp
  simp only [record, hafter, hpreempted, switchOf]
  split_ifs
  · rfl
  · exact (List.append_nil _).symm

/-- A request can only be due when one is pending. -/
theorem not_due_of_pending_nil {rt : Runtime H} (h : rt.board.controller.pending = []) : ¬ Due rt := by
  rintro ⟨hpending, -⟩
  rw [InterruptController.hasPendingFrom, InterruptController.findDeliverableFrom, h] at hpending
  split_ifs at hpending
  · cases hpending
  · cases hpending

/-- The CPU that a round has moved on to, next to the event of its step. -/
theorem event_of_moved [LongDouble] (htraced : Traced images s) (hcleared : Cleared options s)
    (hadmissible : Admissible options.software_interrupt_handler)
    (hrunning : s.runtimeState = .Running) {rt : Runtime H} (hprepared : Prepared s.runtime rt)
    {moved : CPU (Board H)} (hmoved : Due rt ∧ moved = rt.cpu ∨ ¬ Due rt ∧ moved = rt.cpu.step) :
    ∃ event : Option TraceEvent, moved.trace = s.runtime.cpu.trace ++ event.toList
      ∧ (moved.core.softwareInterruptObservation.isSome → event.isSome)
      ∧ Answers moved.core
      ∧ (¬ Due rt → event.isSome ∨ Stopped moved)
      ∧ moved.setup = s.runtime.cpu.setup := by
  have hgoes := htraced.goesOn hrunning
  obtain ⟨hsetup, htrace, hobservation⟩ : rt.cpu.setup = s.runtime.cpu.setup
      ∧ rt.cpu.trace = s.runtime.cpu.trace ∧ rt.cpu.core.softwareInterruptObservation = none := by
    cases hprepared with
    | running inside => exact ⟨rfl, rfl, hcleared.observation⟩
    | completed atEnd => exact ⟨rfl, rfl, hcleared.observation⟩
  have hidle : moved = rt.cpu → moved.trace = s.runtime.cpu.trace ++ (none : Option TraceEvent).toList
      ∧ moved.core.softwareInterruptObservation = none ∧ moved.setup = s.runtime.cpu.setup := by
    rintro rfl
    exact ⟨htrace.trans (List.append_nil _).symm, hobservation, hsetup⟩
  have hnone : moved.core.softwareInterruptObservation = none → Answers moved.core := by
    intro hmoved observation hsome
    rw [hmoved] at hsome
    cases hsome
  rcases hmoved with ⟨hdue, hmoved⟩ | ⟨-, hmoved⟩
  · obtain ⟨htrace', hobservation', hsetup'⟩ := hidle hmoved
    refine ⟨none, htrace', fun hsome => ?_, hnone hobservation', fun hquiet => absurd hdue hquiet, hsetup'⟩
    rw [hobservation'] at hsome
    cases hsome
  · by_cases hstopped : rt.cpu.Stopped
    · -- A CPU that has stopped does not step.
      have hmoved' := hmoved.trans (CPU.step_of_stopped hstopped)
      obtain ⟨htrace', hobservation', hsetup'⟩ := hidle hmoved'
      refine ⟨none, htrace', fun hsome => ?_, hnone hobservation', fun _ => .inr ?_, hsetup'⟩
      · rw [hobservation'] at hsome
        cases hsome
      · rw [hmoved']
        exact hstopped
    · subst hmoved
      have hm : rt.cpu.setup.Recorded := hsetup ▸ htraced.recorded
      have hquiet : rt.cpu.setup.Quiet := fun handler hsome => by
        rw [hsetup, hcleared.handler] at hsome
        exact hadmissible.quiet handler hsome
      have hmessage : rt.cpu.core.state.hasError = false → rt.cpu.core.state.errorMessage = [] := by
        intro _
        rcases hprepared.state with hstate | ⟨hstate, -⟩
        · rw [hstate]
          exact hgoes.no_message
        · rw [hstate]
          exact hgoes.no_message
      rcases CPU.step_trace hm hmessage with ⟨hstop, -⟩ | ⟨-, event, hevent, -⟩
      · exact absurd hstop hstopped
      · refine ⟨some event, ?_, fun _ => rfl, CPU.step_answers hquiet hstopped, fun _ => .inl rfl,
          (CPU.step_setup rt.cpu).trans hsetup⟩
        rw [hevent, htrace]
        rfl

/-- Every round is reported. -/
theorem reported_of_iterate [LongDouble] (htraced : Traced images s) (hcleared : Cleared options s)
    (hadmissible : Admissible options.software_interrupt_handler)
    (hrunning : s.runtimeState = .Running) (h : MultiProcessRunner.iterate s = .ok s') :
    (∃ event observation moved preempted result,
      Reported s s' event observation moved preempted result) ∧ Cleared options s' := by
  obtain ⟨hne, rt, result, after, hprepared, hstep, rfl⟩ :=
    iterate_eq_ok htraced.invariant (htraced.state.trans hrunning) h
  have htable : rt.table = s.runtime.table := hprepared.table
  have hlifecycle : rt.lifecycle = s.runtime.lifecycle := hprepared.lifecycle
  have hpreemptive : rt.preemptive = s.runtime.preemptive := by cases hprepared <;> rfl
  have hinv : rt.table.Invariant := htable.symm ▸ htraced.invariant
  have hne' : rt.table.running_pid ≠ 0 := htable.symm ▸ hne
  have hrunning' : rt.lifecycle.state = .Running := hlifecycle ▸ htraced.state.trans hrunning
  -- What the step did to the accounts and what it left in the trace are known apart; the report
  -- needs both for one and the same step.
  obtain ⟨moved, preempted, hmoved, hstops, hsame, haccounts⟩ :=
    accounts_of_step hinv hne' hrunning' hstep
  obtain ⟨event, htrace, hobserved, hanswers, hevent, hsetup⟩ :=
    event_of_moved htraced hcleared hadmissible hrunning hprepared hmoved
  have hcounts : Accounts s.runtime moved preempted result after := by
    cases hprepared with
    | running inside => exact haccounts
    | completed atEnd => exact { haccounts with }
  refine ⟨⟨event, after.cpu.core.softwareInterruptObservation, moved, preempted, result, ?_⟩, ?_⟩
  · exact {
      pid_ne := hne
      lifecycleSteps := rfl
      state := rfl
      accounts := { hcounts with }
      executionTrace := by
        cases event with
        | none =>
          rw [record_executionTrace_same (hsame.trace.trans (htrace.trans (List.append_nil _)))]
          exact (List.append_nil _).symm
        | some event => exact record_executionTrace_grown (hsame.trace.trans htrace)
      softwareInterrupts := record_softwareInterrupts
      contextSwitches := record_contextSwitches hcounts.preemption_count
      observed := by
        rw [hsame.observation]
        exact hobserved
      exits := fun call hcall hends => by
        rw [hsame.observation] at hcall
        obtain ⟨hhalted, herror, hexit⟩ := hanswers call hcall hends
        -- A process that was preempted before its instruction made no call.
        have hquiet : ¬ Due rt := by
          rcases hmoved with ⟨-, hmoved⟩ | ⟨hquiet, -⟩
          · rw [hmoved] at hcall
            have hnone : rt.cpu.core.softwareInterruptObservation = none := by
              cases hprepared <;> exact hcleared.observation
            rw [hnone] at hcall
            cases hcall
          · exact hquiet
        have hterminated := hstops hquiet (.inl hhalted)
        obtain ⟨process, -, hended⟩ := hcounts.ended hterminated
        exact ⟨hterminated, hended.error.trans herror, hexit⟩
      logged := fun hpending => by
        have hquiet : ¬ Due rt := by
          cases hprepared with
          | running inside => exact not_due_of_pending_nil hpending
          | completed atEnd => exact not_due_completed _
        exact (hevent hquiet).imp id (hstops hquiet) }
  · refine ⟨?_, rfl⟩
    obtain ⟨live, hlives, hlive, -⟩ := live_round htraced hrunning hne hprepared hstep
    show after.cpu.setup.softwareInterruptHandler = _
    rw [hlives.handler, hlive]
    exact hcleared.handler

end MultiProcessRunner

end ZeroCpu.Sys
