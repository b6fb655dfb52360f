import ZeroCpu.System.Runner

/-!
# The verifier of multi-process results

Reference: `include/zero_cpu/system/MultiProcessInvariantVerifier.hpp`,
`src/system/MultiProcessInvariantVerifier.cpp`, and the accessors of `src/trace/TraceEvent.cpp` that it
uses.

`verify` reads a result of the runner, and nothing else, in five loops. Each loop is a fold here, and
its local variables are the fold's state.
-/

namespace ZeroCpu

/-- The PC an event starts at. -/
def TraceEvent.pcBefore (event : TraceEvent) : ℕ := event.before.pc

/-- The PC an event ends at. -/
def TraceEvent.pcAfter (event : TraceEvent) : ℕ := event.after.pc

namespace Sys

open Library Kernel

/-- `MultiProcessInvariantViolation`. -/
structure MultiProcessInvariantViolation where
  code : Str
  message : Str
  lifecycle_step : ℕ
  pid : ProcessId

/-- `MultiProcessInvariantReport`. -/
structure MultiProcessInvariantReport where
  violations : List MultiProcessInvariantViolation

/-- `MultiProcessInvariantReport::passed`. -/
def MultiProcessInvariantReport.passed (report : MultiProcessInvariantReport) : Bool :=
  report.violations.isEmpty

namespace MultiProcessInvariantVerifier

/-- `addViolation` under a condition. -/
def violationIf (condition : Prop) [Decidable condition] (code message : Str) (lifecycleStep : ℕ)
    (pid : ProcessId) : List MultiProcessInvariantViolation :=
  if condition then [⟨code, message, lifecycleStep, pid⟩] else []

/-- A check adds nothing exactly where its condition is false. -/
@[simp] theorem violationIf_eq_nil {condition : Prop} [Decidable condition] {code message : Str}
    {lifecycleStep : ℕ} {pid : ProcessId} :
    violationIf condition code message lifecycleStep pid = [] ↔ ¬ condition := by
  rw [violationIf]
  split_ifs with h
  · exact ⟨nofun, fun hno => absurd h hno⟩
  · exact ⟨fun _ => h, fun _ => rfl⟩

/-! ## Processes -/

/-- What the loop over the process summaries has gathered. -/
structure ProcessScan where
  processIds : List ProcessId
  terminatedCount : ℕ
  faultedCount : ℕ
  violations : List MultiProcessInvariantViolation

/-- The PID is in the set only after the first process that has it. -/
def scanProcess (scan : ProcessScan) (process : ProcessRunSummary) : ProcessScan where
  processIds :=
    if process.pid = 0 ∨ process.pid ∈ scan.processIds then scan.processIds
    else process.pid :: scan.processIds
  terminatedCount := scan.terminatedCount + if process.terminated then 1 else 0
  faultedCount := scan.faultedCount + if process.faulted then 1 else 0
  violations := scan.violations
    ++ violationIf (process.pid = 0 ∨ process.pid ∈ scan.processIds) "invalid_process_id"
      "process summaries contain a zero or duplicate PID" 0 process.pid

/-- The loop over the process summaries. -/
def scanProcesses (processes : List ProcessRunSummary) : ProcessScan :=
  processes.foldl scanProcess ⟨[], 0, 0, []⟩

/-! ## Records in lifecycle order -/

/-- The index of a record in its list and the lifecycle step of the record before it. -/
structure StepOrder where
  index : ℕ
  previous : ℕ

/-- Before the first record. -/
def StepOrder.first : StepOrder := ⟨0, 0⟩

/-- After a record of the given lifecycle step. -/
def StepOrder.next (order : StepOrder) (lifecycleStep : ℕ) : StepOrder :=
  ⟨order.index + 1, lifecycleStep⟩

/-- The two checks of a record's lifecycle step, with the code and message of each. -/
def stepViolations (outOfRange notStrict : Str × Str) (lifecycleSteps : ℕ) (order : StepOrder)
    (lifecycleStep : ℕ) (pid : ProcessId) : List MultiProcessInvariantViolation :=
  violationIf (lifecycleStep = 0 ∨ lifecycleStep > lifecycleSteps) outOfRange.1 outOfRange.2
      lifecycleStep pid
    ++ violationIf (order.index ≠ 0 ∧ lifecycleStep ≤ order.previous) notStrict.1 notStrict.2
      lifecycleStep pid

/-- What the loop over the execution trace has gathered. -/
structure ExecutionScan where
  order : StepOrder
  lastPcAfter : ProcessId → Option ℕ
  violations : List MultiProcessInvariantViolation

/-- The check of an event against the last one of its process, if there is one. -/
def resumeViolations (previous : Option ℕ) (record : ProcessExecutionTraceRecord) :
    List MultiProcessInvariantViolation :=
  match previous with
  | some pc => violationIf (record.event.pcBefore ≠ pc) "execution_pc_discontinuity"
      "PID execution PC does not resume from its prior event" record.lifecycle_step record.pid
  | none => []

/-- One round of the loop over the execution trace. -/
def scanExecution (lifecycleSteps : ℕ) (processIds : List ProcessId) (scan : ExecutionScan)
    (record : ProcessExecutionTraceRecord) : ExecutionScan where
  order := scan.order.next record.lifecycle_step
  lastPcAfter := Function.update scan.lastPcAfter record.pid (some record.event.pcAfter)
  violations := scan.violations
    ++ stepViolations
      ("execution_step_out_of_range", "execution event lifecycle step is out of range")
      ("execution_steps_not_strict", "execution events are not strictly ordered")
      lifecycleSteps scan.order record.lifecycle_step record.pid
    ++ violationIf (record.pid ∉ processIds) "execution_unknown_pid"
      "execution event references an unknown PID" record.lifecycle_step record.pid
    ++ resumeViolations (scan.lastPcAfter record.pid) record

/-- What the loop over the software interrupts has gathered. -/
structure SoftwareInterruptScan where
  order : StepOrder
  violations : List MultiProcessInvariantViolation

/-- The checks of an interrupt that ended its process. `result.process` throws only on an unknown
PID, which it is not asked for. -/
def terminationViolations (result : MultiProcessRunResult) (processIds : List ProcessId)
    (record : ProcessSoftwareInterruptTraceRecord) :
    Except Str (List MultiProcessInvariantViolation) :=
  let handoff := violationIf
    (¬ ∃ contextSwitch ∈ result.context_switches,
      contextSwitch.lifecycle_step = record.lifecycle_step
        ∧ contextSwitch.from_pid = record.pid ∧ contextSwitch.caused_by_termination)
    "terminating_software_interrupt_without_handoff"
    "terminating software interrupt has no termination handoff" record.lifecycle_step record.pid
  if record.observation.result.disposition ≠ .TerminateProcess then .ok []
  else if record.pid ∉ processIds then .ok handoff
  else do
    let process ← result.process record.pid
    pure (handoff ++ violationIf
      (!process.has_exit_code ∨ process.exit_code ≠ record.observation.result.exit_code)
      "software_interrupt_exit_code_mismatch"
      "software interrupt exit code does not match process summary"
      record.lifecycle_step record.pid)

/-- One round of the loop over the software interrupts. -/
def scanSoftwareInterrupt (result : MultiProcessRunResult) (processIds : List ProcessId)
    (scan : SoftwareInterruptScan) (record : ProcessSoftwareInterruptTraceRecord) :
    Except Str SoftwareInterruptScan := do
  let termination ← terminationViolations result processIds record
  pure {
    order := scan.order.next record.lifecycle_step
    violations := scan.violations
      ++ stepViolations
        ("software_interrupt_step_out_of_range", "software interrupt lifecycle step is out of range")
        ("software_interrupt_steps_not_strict", "software interrupt events are not strictly ordered")
        result.lifecycle_steps scan.order record.lifecycle_step record.pid
      ++ violationIf (record.pid ∉ processIds) "software_interrupt_unknown_pid"
        "software interrupt references an unknown PID" record.lifecycle_step record.pid
      ++ violationIf
        (¬ ∃ execution ∈ result.execution_trace,
          execution.lifecycle_step = record.lifecycle_step ∧ execution.pid = record.pid)
        "software_interrupt_without_execution"
        "software interrupt has no matching execution event" record.lifecycle_step record.pid
      ++ termination }

/-- What the loop over the context switches has gathered. -/
structure SwitchScan where
  order : StepOrder
  preemptedSwitches : ℕ
  terminationSwitches : ℕ
  violations : List MultiProcessInvariantViolation

/-- The checks of one context switch, its place in the order apart. -/
def switchViolations (processIds : List ProcessId) (record : ProcessContextSwitchTraceRecord) :
    List MultiProcessInvariantViolation :=
  violationIf (record.from_pid ∉ processIds) "switch_unknown_from_pid"
      "context switch references an unknown source PID" record.lifecycle_step record.from_pid
    ++ violationIf (record.to_pid ≠ 0 ∧ record.to_pid ∉ processIds) "switch_unknown_to_pid"
      "context switch references an unknown destination PID" record.lifecycle_step record.to_pid
    ++ violationIf (record.from_pid = record.to_pid) "switch_same_pid"
      "context-switch record does not change PID" record.lifecycle_step record.from_pid
    ++ violationIf (record.preempted ∧ record.caused_by_termination) "switch_conflicting_cause"
      "context switch cannot be both preemption and termination" record.lifecycle_step record.from_pid
    ++ violationIf (record.to_pid = 0 ∧ !record.caused_by_termination)
      "switch_to_zero_without_termination" "PID 0 destination requires process termination"
      record.lifecycle_step record.from_pid

/-- One round of the loop over the context switches. -/
def scanSwitch (lifecycleSteps : ℕ) (processIds : List ProcessId) (scan : SwitchScan)
    (record : ProcessContextSwitchTraceRecord) : SwitchScan where
  order := scan.order.next record.lifecycle_step
  preemptedSwitches := scan.preemptedSwitches + if record.preempted then 1 else 0
  terminationSwitches := scan.terminationSwitches + if record.caused_by_termination then 1 else 0
  violations := scan.violations
    ++ stepViolations
      ("switch_step_out_of_range", "context-switch lifecycle step is out of range")
      ("switch_steps_not_strict", "context switches are not strictly ordered")
      lifecycleSteps scan.order record.lifecycle_step record.from_pid
    ++ switchViolations processIds record

/-! ## The timeline of running processes -/

/-- What the loop over lifecycle steps has gathered. -/
structure Timeline where
  executionIndex : ℕ
  switchIndex : ℕ
  currentPid : ProcessId
  violations : List MultiProcessInvariantViolation

/-- The record that is next in the list, when it is of the given lifecycle step. -/
def recordAt {α : Type} (lifecycleStepOf : α → ℕ) (records : List α) (index lifecycleStep : ℕ) :
    Option α :=
  records[index]?.filter fun record => lifecycleStepOf record == lifecycleStep

/-- The process that runs, which nobody knows until the first record. -/
def knownPid (currentPid : ProcessId) (execution : Option ProcessExecutionTraceRecord)
    (contextSwitch : Option ProcessContextSwitchTraceRecord) : ProcessId :=
  if currentPid ≠ 0 then currentPid
  else match execution, contextSwitch with
    | some record, _ => record.pid
    | none, some record => record.from_pid
    | none, none => 0

/-- One round of the loop over lifecycle steps. -/
def Timeline.advance (executionTrace : List ProcessExecutionTraceRecord)
    (contextSwitches : List ProcessContextSwitchTraceRecord) (timeline : Timeline)
    (lifecycleStep : ℕ) : Timeline :=
  let execution := recordAt ProcessExecutionTraceRecord.lifecycle_step executionTrace
    timeline.executionIndex lifecycleStep
  let contextSwitch := recordAt ProcessContextSwitchTraceRecord.lifecycle_step contextSwitches
    timeline.switchIndex lifecycleStep
  let currentPid := knownPid timeline.currentPid execution contextSwitch
  { executionIndex := timeline.executionIndex + if execution.isSome then 1 else 0
    switchIndex := timeline.switchIndex + if contextSwitch.isSome then 1 else 0
    currentPid := match contextSwitch with
      | some record => record.to_pid
      | none => currentPid
    violations := timeline.violations
      ++ (match execution with
        | some record => violationIf (currentPid ≠ 0 ∧ record.pid ≠ currentPid)
            "execution_pid_mismatch" "execution event PID does not match running timeline PID"
            lifecycleStep record.pid
        | none => [])
      ++ match contextSwitch with
        | some record => violationIf (currentPid ≠ 0 ∧ record.from_pid ≠ currentPid)
            "switch_from_pid_mismatch" "context switch source does not match running timeline PID"
            lifecycleStep record.from_pid
        | none => [] }

/-- The loop over lifecycle steps. -/
def timeline (executionTrace : List ProcessExecutionTraceRecord)
    (contextSwitches : List ProcessContextSwitchTraceRecord) (lifecycleSteps : ℕ) : Timeline :=
  (List.range' 1 lifecycleSteps).foldl (Timeline.advance executionTrace contextSwitches) ⟨0, 0, 0, []⟩

/-! ## The report -/

/-- The checks of the result's counters that come before the records. -/
def countViolations (result : MultiProcessRunResult) (scan : ProcessScan) :
    List MultiProcessInvariantViolation :=
  violationIf (result.termination_count ≠ scan.terminatedCount) "termination_count_mismatch"
      "termination_count does not match terminal processes" 0 0
    ++ violationIf (result.fault_count ≠ scan.faultedCount) "fault_count_mismatch"
      "fault_count does not match faulted processes" 0 0
    ++ violationIf (result.fault_count > result.termination_count
        ∨ result.termination_count > result.process_count) "invalid_termination_counts"
      "fault/termination counts violate process-count bounds" 0 0
    ++ violationIf (result.context_switch_count > result.preemption_count)
      "invalid_preemption_counts" "context-switch count exceeds preemption count" 0 0
    ++ violationIf (result.step_limit_reached ∧ result.runtime_state ≠ .Running)
      "invalid_step_limit_state" "step-limit result must remain in Running state" 0 0

/-- The checks at the end of the timeline. -/
def timelineViolations (result : MultiProcessRunResult) (final : Timeline) :
    List MultiProcessInvariantViolation :=
  violationIf (final.executionIndex ≠ result.execution_trace.length
        ∨ final.switchIndex ≠ result.context_switches.length) "timeline_unconsumed_records"
      "timeline contains records outside lifecycle ordering" 0 0
    ++ violationIf (result.runtime_state = .Running ∧ result.lifecycle_steps ≠ 0
        ∧ final.currentPid = 0) "running_without_pid"
      "Running runtime timeline ends without a running PID" 0 0
    ++ violationIf (result.runtime_state = .Completed ∧ final.currentPid ≠ 0)
      "completed_with_running_pid" "Completed runtime timeline still has a running PID"
      result.lifecycle_steps final.currentPid

/-- `MultiProcessInvariantVerifier::verify`. -/
def verify (result : MultiProcessRunResult) : Except Str MultiProcessInvariantReport := do
  let processes := scanProcesses result.processes
  let executions := result.execution_trace.foldl
    (scanExecution result.lifecycle_steps processes.processIds) ⟨.first, fun _ => none, []⟩
  let softwareInterrupts ← result.software_interrupts.foldlM
    (scanSoftwareInterrupt result processes.processIds) ⟨.first, []⟩
  let switches := result.context_switches.foldl
    (scanSwitch result.lifecycle_steps processes.processIds) ⟨.first, 0, 0, []⟩
  let final := timeline result.execution_trace result.context_switches result.lifecycle_steps
  pure ⟨violationIf (result.process_count ≠ result.processes.length) "process_count_mismatch"
      "process_count does not match process summaries" 0 0
    ++ processes.violations
    ++ countViolations result processes
    ++ executions.violations
    ++ softwareInterrupts.violations
    ++ switches.violations
    ++ violationIf (switches.preemptedSwitches ≠ result.context_switch_count)
      "preempted_switch_count_mismatch" "preempted switch records do not match scheduler count" 0 0
    ++ violationIf (switches.terminationSwitches ≠ result.termination_count)
      "termination_switch_count_mismatch"
      "termination switch records do not match termination count" 0 0
    ++ final.violations
    ++ timelineViolations result final⟩

end MultiProcessInvariantVerifier

end Sys

end ZeroCpu
