import ZeroCpu.Kernel.Scheduler
import ZeroCpu.Kernel.Syscalls

/-!
# The multi-process runner

Reference: `include/zero_cpu/system/MultiProcessRunner.hpp`, `src/system/MultiProcessRunner.cpp`.

The caller's devices and file system own a world `H`. The runner creates the timer and the
interrupt controller itself, so nothing the caller passes in can reach them.
-/

namespace ZeroCpu.Sys

open Library Kernel

variable {H : Type}

/-- `MultiProcessRunOptions`. -/
structure MultiProcessRunOptions (H : Type) where
  timer_vector : UInt8
  quantum : BitVec 64
  timer_payload : Word
  max_lifecycle_steps : BitVec 64
  normal_exit_code : Word
  fault_exit_code : Word
  mmio_bus : Option (MMIOBus H)
  software_interrupt_handler : Option (SoftwareInterruptHandler (Board H))

/-- `ProcessExecutionTraceRecord`. -/
structure ProcessExecutionTraceRecord where
  lifecycle_step : ℕ
  pid : ProcessId
  event : TraceEvent

/-- `ProcessSoftwareInterruptTraceRecord`. -/
structure ProcessSoftwareInterruptTraceRecord where
  lifecycle_step : ℕ
  pid : ProcessId
  observation : SoftwareInterruptObservation

/-- `ProcessContextSwitchTraceRecord`. -/
structure ProcessContextSwitchTraceRecord where
  lifecycle_step : ℕ
  from_pid : ProcessId
  to_pid : ProcessId
  preempted : Bool
  caused_by_termination : Bool

/-- `ProcessRunSummary`, without the copies of metadata fields that nothing here reads. -/
structure ProcessRunSummary where
  pid : ProcessId
  state : ProcessState
  has_exit_code : Bool
  exit_code : Word
  termination_kind : ProcessTerminationKind
  termination_message : Str
  final_context : ProcessContext
  final_memory : Memory

/-- `ProcessRunSummary::terminated`. -/
def ProcessRunSummary.terminated (summary : ProcessRunSummary) : Bool :=
  summary.state == .Terminated && summary.has_exit_code

/-- `ProcessRunSummary::faulted`. -/
def ProcessRunSummary.faulted (summary : ProcessRunSummary) : Bool :=
  summary.terminated && summary.termination_kind == .CpuFault

/-- `MultiProcessRunResult`. -/
structure MultiProcessRunResult where
  runtime_state : ProcessRuntimeState
  step_limit_reached : Bool
  lifecycle_steps : ℕ
  process_count : ℕ
  termination_count : ℕ
  fault_count : ℕ
  preemption_count : ℕ
  context_switch_count : ℕ
  execution_trace : List ProcessExecutionTraceRecord
  software_interrupts : List ProcessSoftwareInterruptTraceRecord
  context_switches : List ProcessContextSwitchTraceRecord
  processes : List ProcessRunSummary

namespace MultiProcessRunResult

/-- `MultiProcessRunResult::completed`. -/
def completed (result : MultiProcessRunResult) : Bool :=
  !result.step_limit_reached && result.runtime_state == .Completed

/-- `MultiProcessRunResult::process`. -/
def process (result : MultiProcessRunResult) (pid : ProcessId) : Except Str ProcessRunSummary :=
  match result.processes.find? fun summary => summary.pid == pid with
  | some summary => .ok summary
  | none => .error ("Multi-process result does not contain PID " ++ toStr pid)

end MultiProcessRunResult

namespace MultiProcessRunner

/-- The checks of the options of a run. -/
def validateOptions (options : MultiProcessRunOptions H) : Except Str Unit := do
  reject (options.quantum = 0) "Multi-process quantum must be greater than zero"
  reject (options.max_lifecycle_steps = 0) "Multi-process step limit must be greater than zero"

/-- The table after `createProcess` of every image in turn. -/
def createProcesses (table : ProcessTable) : List ProcessImage → Except Str ProcessTable
  | [] => .ok table
  | image :: rest => do
      validateProcessImage image
      let (_, table) ← table.createProcess image
      createProcesses table rest

/-- The variables of `runImages` that its loop changes. -/
structure RunState (H : Type) where
  runtime : Runtime H
  runtimeState : ProcessRuntimeState
  lifecycleSteps : ℕ
  executionTrace : List ProcessExecutionTraceRecord
  softwareInterrupts : List ProcessSoftwareInterruptTraceRecord
  contextSwitches : List ProcessContextSwitchTraceRecord

/-- The objects of `runImages` before `lifecycle.start`. -/
def newRuntime (host : H) (options : MultiProcessRunOptions H) (timer : TimerDevice)
    (table : ProcessTable) : Runtime H where
  cpu :=
    let cpu := CPU.new ⟨host, timer, InterruptController.clear⟩
    { cpu with setup := { cpu.setup with
      mmioBus := options.mmio_bus.map (MMIOBus.zoom Board.hostRef)
      softwareInterruptHandler := options.software_interrupt_handler } }
  table := table
  scheduler := RoundRobinScheduler.initial
  preemptive := TimerPreemptiveScheduler.initial
  lifecycle :=
    { normal_exit_code := options.normal_exit_code
      fault_exit_code := options.fault_exit_code
      started := false
      state := .Ready
      termination_count := 0
      fault_count := 0 }

/-- `runImages` up to the return of `lifecycle.start`. -/
def boot (host : H) (images : List ProcessImage) (options : MultiProcessRunOptions H) :
    Except Str (RunState H) := do
  validateOptions options
  reject (images = []) "runImages requires at least one process image"
  let table ← createProcesses ProcessTable.empty images
  let timer ← TimerDevice.make options.timer_vector options.quantum options.timer_payload
  match ProcessLifecycleManager.start (newRuntime host options timer table) with
  | (.error e, _) => .error e
  | (.ok runtimeState, runtime) => .ok {
      runtime := runtime
      runtimeState := runtimeState
      lifecycleSteps := 0
      executionTrace := []
      softwareInterrupts := []
      contextSwitches := [] }

/-- `reachedExecutableEnd`. -/
def reachedExecutableEnd (rt : Runtime H) : Except Str Bool :=
  if !rt.table.hasRunningProcess || rt.cpu.core.state.hasError then .ok false
  else do
    let runningPid ← rt.table.runningProcessId
    let process ← rt.table.process runningPid
    match process.addressSpace.executable_metadata with
    | some metadata => pure (rt.cpu.core.state.pc == metadata.code_end_exclusive)
    | none => pure false

/-- The loop of `discardCompletionTimerRequest`; every round takes a request out of the queue, so
its length bounds the number of rounds. -/
def discardRequests (vector : UInt8) : ℕ → InterruptController → InterruptController
  | 0, controller => controller
  | n + 1, controller =>
      match controller.acknowledgeFrom vector TimerPreemptiveScheduler.kTimerSource with
      | .ok (_, controller') => discardRequests vector n controller'
      | .error _ => controller

/-- The timer requests that are left for a process at its end are dropped. -/
def discardCompletionTimerRequest (rt : Runtime H) : Runtime H :=
  let controller := rt.board.controller
  rt.setController (discardRequests rt.board.timer.vector controller.pending.length controller)

/-- A process at the end of its code is halted before the next step. -/
def completeAtEnd (rt : Runtime H) : Except Str (Runtime H) := do
  let atEnd ← reachedExecutableEnd rt
  if atEnd then
    let rt := discardCompletionTimerRequest rt
    pure { rt with cpu := ProcessLifecycleManager.haltCpu rt.cpu }
  else pure rt

/-- The records that one round of the loop adds, from the runtime before and after it. -/
def record (s : RunState H) (before after : Runtime H) (beforePid : ProcessId)
    (stepResult : ProcessLifecycleStepResult) : RunState H :=
  let lifecycleSteps := s.lifecycleSteps + 1
  let afterPid := if after.table.hasRunningProcess then after.table.running_pid else 0
  { runtime := { after with cpu := { after.cpu with
      core := { after.cpu.core with softwareInterruptObservation := none } } }
    runtimeState := stepResult.state
    lifecycleSteps := lifecycleSteps
    executionTrace :=
      match after.cpu.trace.getLast? with
      | some event =>
          if after.cpu.trace.length > before.cpu.trace.length then
            s.executionTrace ++ [⟨lifecycleSteps, beforePid, event⟩]
          else s.executionTrace
      | none => s.executionTrace
    softwareInterrupts :=
      match after.cpu.core.softwareInterruptObservation with
      | some observation => s.softwareInterrupts ++ [⟨lifecycleSteps, beforePid, observation⟩]
      | none => s.softwareInterrupts
    contextSwitches :=
      if beforePid ≠ afterPid then
        s.contextSwitches ++ [{
          lifecycle_step := lifecycleSteps
          from_pid := beforePid
          to_pid := afterPid
          preempted :=
            decide (after.preemptive.preemption_count > before.preemptive.preemption_count)
          caused_by_termination := stepResult.process_terminated }]
      else s.contextSwitches }

/-- One round of the loop. -/
def iterate [LongDouble] (s : RunState H) : Except Str (RunState H) := do
  reject (¬ s.runtime.table.hasRunningProcess)
    "Running multi-process runtime has no Running process"
  let beforePid ← s.runtime.table.runningProcessId
  let rt ← completeAtEnd s.runtime
  match ProcessLifecycleManager.step rt with
  | (.error e, _) => .error e
  | (.ok stepResult, after) => .ok (record s s.runtime after beforePid stepResult)

/-- The loop, with the rounds that the step limit leaves. -/
def runLoop [LongDouble] : ℕ → RunState H → Except Str (RunState H)
  | 0, s => .ok s
  | rounds + 1, s =>
      if s.runtimeState ≠ .Running then .ok s
      else do
        let s ← iterate s
        runLoop rounds s

/-- The context a summary shows: the CPU's for the running process, the saved one otherwise. -/
def finalContext (pid : ProcessId) (process : ProcessControlBlock) (cpu : CPU (Board H))
    (isRunning : Bool) : Except Str ProcessContext :=
  if isRunning then captureProcessContextSnapshot pid cpu else .ok process.context

/-- The summary of a process; the CPU's state counts for the running one. -/
def makeSummary (pid : ProcessId) (process : ProcessControlBlock) (cpu : CPU (Board H))
    (isRunning : Bool) : Except Str ProcessRunSummary := do
  let final_context ← finalContext pid process cpu isRunning
  pure {
    pid := pid
    state := process.state
    has_exit_code := process.hasExitCode
    exit_code := if process.hasExitCode then process.exitCode else 0
    termination_kind := if process.hasExitCode then process.terminationKind else .NormalExit
    termination_message := if process.hasExitCode then process.terminationMessage else []
    final_context := final_context
    final_memory := if isRunning then cpu.core.state.memory else process.addressSpace.memory }

/-- The summaries of the given processes of the table. -/
def makeSummaries (rt : Runtime H) : List ProcessId → Except Str (List ProcessRunSummary)
  | [] => .ok []
  | pid :: rest => do
      let process ← rt.table.process pid
      let summary ← makeSummary pid process rt.cpu
        (rt.table.hasRunningProcess && rt.table.running_pid == pid)
      let summaries ← makeSummaries rt rest
      pure (summary :: summaries)

/-- The result built after the loop. -/
def finish (options : MultiProcessRunOptions H) (s : RunState H) :
    Except Str MultiProcessRunResult := do
  let processes ← makeSummaries s.runtime s.runtime.table.processIds
  pure {
    runtime_state := s.runtimeState
    step_limit_reached := s.runtimeState == .Running
      && decide (s.lifecycleSteps ≥ options.max_lifecycle_steps.toNat)
    lifecycle_steps := s.lifecycleSteps
    process_count := s.runtime.table.size
    termination_count := s.runtime.lifecycle.termination_count
    fault_count := s.runtime.lifecycle.fault_count
    preemption_count := s.runtime.preemptive.preemption_count
    context_switch_count := s.runtime.preemptive.context_switch_count
    execution_trace := s.executionTrace
    software_interrupts := s.softwareInterrupts
    context_switches := s.contextSwitches
    processes := processes }

/-- `MultiProcessRunner::runImages`, next to the world `host` of the caller's devices. -/
def runImages [LongDouble] (host : H) (images : List ProcessImage)
    (options : MultiProcessRunOptions H) : Except Str MultiProcessRunResult := do
  let s ← boot host images options
  let s ← runLoop options.max_lifecycle_steps.toNat s
  finish options s

end MultiProcessRunner

end ZeroCpu.Sys
