import ZeroCpu.System.VerifierScans

/-!
# What the verifier decides

Reference: `src/system/MultiProcessInvariantVerifier.cpp`.

`verify` always returns a report, and the report is empty exactly for a coherent result: its counters
count what they say, its records are in order and name known processes, and some schedule explains
them, that is, a process for every lifecycle step that executes the event of the step, is left by its
context switch and stays until then.
-/

namespace ZeroCpu.Sys

open Library Kernel

/-! ## Coherent results -/

namespace InOrder

end InOrder

namespace MultiProcessInvariantVerifier

/-! ## The loops over records -/

section Interrupts

variable {result : MultiProcessRunResult} {processIds : List ProcessId}
  (hids : ∀ pid ∈ processIds, pid ∈ result.processes.map ProcessRunSummary.pid)

include hids

end Interrupts

/-! ## The timeline -/

section Records

variable {α : Type} {lifecycleStepOf : α → ℕ}

end Records

/-- The process that runs at a step and the one that runs after it explain the records of the step. -/
structure Explains (execution : Option ProcessExecutionTraceRecord)
    (contextSwitch : Option ProcessContextSwitchTraceRecord) (now next : ProcessId) : Prop where
  executes : ∀ record ∈ execution, now = record.pid
  leaves : ∀ record ∈ contextSwitch, now = record.from_pid
  enters : ∀ record ∈ contextSwitch, record.to_pid ≠ 0 → next = record.to_pid
  stays : contextSwitch = none → next = now

/-- The process that a round of the loop leaves behind, given the records of its step. -/
def pidAfter (currentPid : ProcessId) (execution : Option ProcessExecutionTraceRecord)
    (contextSwitch : Option ProcessContextSwitchTraceRecord) : ProcessId :=
  match contextSwitch with
  | some record => record.to_pid
  | none => knownPid currentPid execution contextSwitch

/-- The records of a step are of the process that is known to run. -/
structure Accepted (currentPid : ProcessId) (execution : Option ProcessExecutionTraceRecord)
    (contextSwitch : Option ProcessContextSwitchTraceRecord) : Prop where
  executes : ∀ record ∈ execution, knownPid currentPid execution contextSwitch ≠ 0 →
    record.pid = knownPid currentPid execution contextSwitch
  leaves : ∀ record ∈ contextSwitch, knownPid currentPid execution contextSwitch ≠ 0 →
    record.from_pid = knownPid currentPid execution contextSwitch

/-- A process that is known stays known. -/
theorem knownPid_of_ne {currentPid : ProcessId} (h : currentPid ≠ 0)
    (execution : Option ProcessExecutionTraceRecord)
    (contextSwitch : Option ProcessContextSwitchTraceRecord) :
    knownPid currentPid execution contextSwitch = currentPid := if_pos h

section Round

variable {currentPid : ProcessId} {execution : Option ProcessExecutionTraceRecord}
  {contextSwitch : Option ProcessContextSwitchTraceRecord}

/-- Records that have an explanation are accepted, whether or not it is known who runs. -/
theorem Explains.accepted {now next : ProcessId} (h : Explains execution contextSwitch now next)
    (hcurrent : currentPid = 0 ∨ currentPid = now) :
    Accepted currentPid execution contextSwitch
      ∧ (pidAfter currentPid execution contextSwitch = 0
        ∨ pidAfter currentPid execution contextSwitch = next) := by
  -- The first record of a run tells who is running.
  have hknown : knownPid currentPid execution contextSwitch = 0
      ∨ knownPid currentPid execution contextSwitch = now := by
    by_cases hzero : currentPid = 0
    · subst hzero
      cases execution with
      | some record => exact .inr (h.executes record rfl).symm
      | none =>
        cases contextSwitch with
        | some record => exact .inr (h.leaves record rfl).symm
        | none => exact .inl rfl
    · rw [knownPid_of_ne hzero]
      exact hcurrent
  refine ⟨⟨fun record hrecord hne => ?_, fun record hrecord hne => ?_⟩, ?_⟩
  · rw [hknown.resolve_left hne, h.executes record hrecord]
  · rw [hknown.resolve_left hne, h.leaves record hrecord]
  · cases contextSwitch with
    | some record =>
      by_cases hto : record.to_pid = 0
      · exact .inl hto
      · exact .inr (h.enters record rfl hto).symm
    | none =>
      rw [h.stays rfl]
      exact hknown

end Round

section Timeline

variable (executions : List ProcessExecutionTraceRecord)
  (switches : List ProcessContextSwitchTraceRecord)

variable {executions switches} {m : ℕ}
  (hexecutions : InOrder m (executions.map ProcessExecutionTraceRecord.lifecycle_step))
  (hswitches : InOrder m (switches.map ProcessContextSwitchTraceRecord.lifecycle_step))

include hexecutions hswitches

end Timeline

/-! ## The report -/

section Report

variable {result : MultiProcessRunResult}

section Scheduled

variable (hexecutions : InOrder result.lifecycle_steps
    (result.execution_trace.map ProcessExecutionTraceRecord.lifecycle_step))
  (hswitches : InOrder result.lifecycle_steps
    (result.context_switches.map ProcessContextSwitchTraceRecord.lifecycle_step))
  (hpid : ∀ record ∈ result.execution_trace, record.pid ≠ 0)

include hexecutions hswitches hpid

end Scheduled

end Report

end MultiProcessInvariantVerifier

end ZeroCpu.Sys
