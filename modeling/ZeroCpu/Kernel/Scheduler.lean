import Mathlib.Data.List.Destutter
import Mathlib.Data.List.Sort
import ZeroCpu.Kernel.ProcessTable

/-!
# Scheduling, context switches and process lifecycle

Reference: `src/kernel/RoundRobinScheduler.cpp`, `src/kernel/ProcessDispatcher.cpp`,
`src/kernel/TimerPreemptiveScheduler.cpp`, `src/kernel/ProcessLifecycleManager.cpp`.

The timer and the interrupt controller are created by `TimerPreemptiveScheduler` and shared with
the CPU; together with whatever the caller's devices own they make up the `Board`.
-/

namespace ZeroCpu.Kernel

open Library

variable {W H : Type}

/-! ## Round robin -/

/-- `RoundRobinScheduler`: its cursor, if it has one. -/
structure RoundRobinScheduler where
  has_last_selection : Bool
  last_selected_pid : ProcessId
deriving DecidableEq

namespace RoundRobinScheduler

/-- The state after construction. -/
def initial : RoundRobinScheduler := ⟨false, 0⟩

/-- Some process is ready or running. -/
def hasRunnableProcess (table : ProcessTable) : Bool :=
  table.hasRunningProcess || !(table.processIdsInState .Ready).isEmpty

/-- The list from behind the cursor on, then the rest. -/
def rotateAfterCursor (processIds : List ProcessId) (cursor : ProcessId) (hasCursor : Bool) :
    List ProcessId :=
  if processIds.isEmpty || !hasCursor then processIds
  else
    processIds.dropWhile (fun pid => pid ≤ cursor) ++ processIds.takeWhile fun pid => pid ≤ cursor

/-- The runnable processes in PID order. -/
def candidates (table : ProcessTable) : List ProcessId :=
  let ready := table.processIdsInState .Ready
  let runnable := if table.hasRunningProcess then ready ++ [table.running_pid] else ready
  (runnable.insertionSort (· ≤ ·)).destutter (· ≠ ·)

/-- The cursor a selection starts after: the last selection, else the running process. -/
def cursor (scheduler : RoundRobinScheduler) (table : ProcessTable) : ProcessId × Bool :=
  if !scheduler.has_last_selection && table.hasRunningProcess then (table.running_pid, true)
  else (scheduler.last_selected_pid, scheduler.has_last_selection)

/-- Hand the CPU to `selectedPid` in the table; a failure puts the running process back. -/
def switchTo (selectedPid : ProcessId) : Exec Str (ProcessTable × RoundRobinScheduler) Unit := do
  let (table, _) ← Exec.get
  if table.hasRunningProcess then
    if selectedPid ≠ table.running_pid then do
      transition table.running_pid .Ready
      Exec.onError (transition selectedPid .Running) (transition table.running_pid .Running)
    else pure ()
  else transition selectedPid .Running
where
  /-- `table.transition(pid, state)`. -/
  transition (pid : ProcessId) (state : ProcessState) :
      Exec Str (ProcessTable × RoundRobinScheduler) Unit := do
    let (table, _) ← Exec.get
    let table ← Exec.lift (table.transition pid state)
    Exec.modify fun s => (table, s.2)

/-- `RoundRobinScheduler::scheduleNext`. -/
def scheduleNext : Exec Str (ProcessTable × RoundRobinScheduler) ProcessId := do
  let (table, scheduler) ← Exec.get
  let (cursor, hasCursor) := scheduler.cursor table
  match rotateAfterCursor (candidates table) cursor hasCursor with
  | [] => Exec.throw "Round-robin scheduler has no runnable process"
  | selectedPid :: _ => do
      switchTo selectedPid
      Exec.modify fun s => (s.1, ⟨true, selectedPid⟩)
      pure selectedPid

end RoundRobinScheduler

/-! ## The dispatcher -/

/-- The objects a context switch works on. -/
structure Dispatch (W : Type) where
  cpu : CPU W
  table : ProcessTable
  scheduler : RoundRobinScheduler

namespace Dispatch

/-- The CPU of a dispatch. -/
def cpuRef : Ref (Dispatch W) (CPU W) where
  get := Dispatch.cpu
  set cpu d := { d with cpu := cpu }
  get_set _ _ := rfl
  set_get _ := rfl
  set_set _ _ _ := rfl

/-- The table and the scheduler of a dispatch. -/
def schedulingRef : Ref (Dispatch W) (ProcessTable × RoundRobinScheduler) where
  get d := (d.table, d.scheduler)
  set p d := { d with table := p.1, scheduler := p.2 }
  get_set _ _ := rfl
  set_get _ := rfl
  set_set _ _ _ := rfl

end Dispatch

/-- Save the running process into the table. -/
def saveRunning : Exec Str (Dispatch W) Unit := do
  let d ← Exec.get
  if d.table.hasRunningProcess then do
    let currentPid ← Exec.lift d.table.runningProcessId
    let currentContext ← Exec.lift (captureProcessContext currentPid d.cpu)
    let table ← Exec.lift
      (d.table.updateRuntimeState currentPid currentContext d.cpu.core.state.memory)
    Exec.modify fun d => { d with table := table }
  else pure ()

/-- Put a process of the table on the CPU. -/
def resume (selected : ProcessControlBlock) : Exec Str (Dispatch W) Unit := do
  Exec.zoom Dispatch.cpuRef selected.addressSpace.activate
  let d ← Exec.get
  Exec.lift (validateProcessContextForCPU selected.context d.cpu)
  Exec.zoom Dispatch.cpuRef (restoreProcessContext selected.context)

/-- `ProcessDispatcher::dispatchNext`. -/
def dispatchNext : Exec Str (Dispatch W) ProcessId := do
  let d ← Exec.get
  Exec.require (!d.cpu.core.usingKernelInterruptStack)
    "Cannot dispatch while Kernel interrupt stack is active"
  Exec.require (RoundRobinScheduler.hasRunnableProcess d.table)
    "Process dispatcher has no runnable process"
  Exec.staged do
    saveRunning
    let selectedPid ← Exec.zoom Dispatch.schedulingRef RoundRobinScheduler.scheduleNext
    let d ← Exec.get
    let selected ← Exec.lift (d.table.process selectedPid)
    resume selected
    pure selectedPid

/-! ## The board -/

/-- The devices' world of a runtime: what the caller's devices own, the timer and the interrupt
controller. -/
structure Board (H : Type) where
  host : H
  timer : TimerDevice
  controller : InterruptController

namespace Board

/-- The host devices of a board. -/
def hostRef : Ref (Board H) H where
  get := Board.host
  set host board := { board with host := host }
  get_set _ _ := rfl
  set_get _ := rfl
  set_set _ _ _ := rfl

/-- The controller of a board. -/
def controllerRef : Ref (Board H) InterruptController where
  get := Board.controller
  set controller board := { board with controller := controller }
  get_set _ _ := rfl
  set_get _ := rfl
  set_set _ _ _ := rfl

/-- The timer with the controller it holds. -/
def timerRef : Ref (Board H) (TimerDevice × InterruptController) where
  get board := (board.timer, board.controller)
  set p board := { board with timer := p.1, controller := p.2 }
  get_set _ _ := rfl
  set_get _ := rfl
  set_set _ _ _ := rfl

end Board

/-! ## Timer preemption -/

/-- `TimerPreemptiveScheduler`, without the timer and the controller, which are on the board. -/
structure TimerPreemptiveScheduler where
  attached : Bool
  started : Bool
  preemption_count : ℕ
  context_switch_count : ℕ

/-- `ProcessRuntimeState`. -/
inductive ProcessRuntimeState where
  | Ready
  | Running
  | Completed
  | Deadlocked
deriving DecidableEq, Repr

/-- `ProcessLifecycleManager`. -/
structure ProcessLifecycleManager where
  normal_exit_code : Word
  fault_exit_code : Word
  started : Bool
  state : ProcessRuntimeState
  termination_count : ℕ
  fault_count : ℕ

/-- The cooperating objects of the runtime. -/
structure Runtime (H : Type) where
  cpu : CPU (Board H)
  table : ProcessTable
  scheduler : RoundRobinScheduler
  preemptive : TimerPreemptiveScheduler
  lifecycle : ProcessLifecycleManager

namespace Runtime

/-- The devices, which live behind the CPU. -/
def board (rt : Runtime H) : Board H := rt.cpu.core.world

/-- The objects that a context switch works on. -/
def dispatchRef : Ref (Runtime H) (Dispatch (Board H)) where
  get rt := ⟨rt.cpu, rt.table, rt.scheduler⟩
  set d rt := { rt with cpu := d.cpu, table := d.table, scheduler := d.scheduler }
  get_set _ _ := rfl
  set_get _ := rfl
  set_set _ _ _ := rfl

/-- Replace the controller on the board. -/
def setController (controller : InterruptController) (rt : Runtime H) : Runtime H :=
  { rt with cpu := { rt.cpu with core := { rt.cpu.core with
    world := { rt.cpu.core.world with controller := controller } } } }

end Runtime

namespace TimerPreemptiveScheduler

/-- The `source` of the timer's requests. -/
def kTimerSource : Str := "timer"

def initial : TimerPreemptiveScheduler := ⟨false, false, 0, 0⟩

def attach : Exec Str (Runtime H) Unit := do
  let rt ← Exec.get
  if rt.preemptive.attached then pure ()
  else do
    Exec.require rt.cpu.setup.interruptController.isNone
      "Timer preemptive scheduler requires a CPU without an existing InterruptController"
    Exec.modify fun rt => { rt with
      cpu := { rt.cpu with setup := { rt.cpu.setup with
        interruptController := some Board.controllerRef
        clockedDevices := rt.cpu.setup.clockedDevices ++ [TimerDevice.clocked Board.timerRef] } }
      preemptive := { rt.preemptive with attached := true } }

def start : Exec Str (Runtime H) ProcessId := do
  let rt ← Exec.get
  Exec.require (!rt.preemptive.started) "Timer preemptive scheduler is already started"
  attach
  let selectedPid ← Exec.zoom Runtime.dispatchRef dispatchNext
  Exec.modify fun rt => { rt with preemptive := { rt.preemptive with started := true } }
  pure selectedPid

/-- Whether the running process waits at the end of its code, where it must not be switched out. -/
def atUserCodeEnd (cpu : CPU W) : Bool :=
  cpu.core.state.isUserMode && cpu.setup.hasUserCodeRange
    && cpu.core.state.pc == cpu.setup.userCodeEndExclusive

/-- The switch a pending timer request asks for. -/
def preempt : Exec Str (Runtime H) ProcessId := do
  let rt ← Exec.get
  let previousPid ← Exec.lift rt.table.runningProcessId
  let selectedPid ← Exec.zoom Runtime.dispatchRef dispatchNext
  let rt ← Exec.get
  let (request, controller) ← Exec.lift
    (rt.board.controller.acknowledgeFrom rt.board.timer.vector kTimerSource)
  Exec.modify (Runtime.setController controller)
  Exec.require (request.vector == rt.board.timer.vector && request.source == kTimerSource)
    "Timer preemption acknowledged an unexpected interrupt"
  Exec.modify fun rt => { rt with preemptive := { rt.preemptive with
    preemption_count := rt.preemptive.preemption_count + 1
    context_switch_count := rt.preemptive.context_switch_count
      + if selectedPid ≠ previousPid then 1 else 0 } }
  pure selectedPid

/-- The process selected when a pending request was serviced, nothing otherwise. -/
def servicePendingPreemption : Exec Str (Runtime H) (Option ProcessId) := do
  let rt ← Exec.get
  if !rt.board.controller.hasPendingFrom rt.board.timer.vector kTimerSource then pure none
  else if atUserCodeEnd rt.cpu then pure none
  else do
    let selectedPid ← preempt
    pure (some selectedPid)

/-- The part of `step` that executes an instruction. -/
def stepCpu [LongDouble] (runningPid : ProcessId) : Exec Str (Runtime H) ProcessId := do
  Exec.modify fun rt => { rt with cpu := rt.cpu.step }
  let rt ← Exec.get
  if rt.cpu.core.state.hasError || rt.cpu.core.state.halted then
    Exec.lift rt.table.runningProcessId
  else do
    let serviced ← servicePendingPreemption
    pure (serviced.getD runningPid)

def step [LongDouble] : Exec Str (Runtime H) ProcessId := do
  let rt ← Exec.get
  Exec.require rt.preemptive.started "Timer preemptive scheduler is not started"
  Exec.require rt.preemptive.attached "Timer preemptive scheduler CPU mismatch"
  Exec.require rt.table.hasRunningProcess "Timer preemptive scheduler has no Running process"
  let runningPid ← Exec.lift rt.table.runningProcessId
  let serviced ← servicePendingPreemption
  match serviced with
  | some selectedPid => pure selectedPid
  | none => stepCpu runningPid

end TimerPreemptiveScheduler

/-! ## The process lifecycle -/

/-- `ProcessLifecycleStepResult`. -/
structure ProcessLifecycleStepResult where
  state : ProcessRuntimeState
  process_terminated : Bool
  process_faulted : Bool
  terminated_pid : ProcessId
  running_pid : ProcessId

namespace ProcessLifecycleManager

/-- The runtime state once no process is running. -/
def classifyWithoutRunning (table : ProcessTable) : ProcessRuntimeState :=
  if !(table.processIdsInState .Ready).isEmpty then .Ready
  else if !(table.processIdsInState .Blocked).isEmpty then .Deadlocked
  else .Completed

/-- `cpu.state().setHalted(true)`. -/
def haltCpu (cpu : CPU W) : CPU W :=
  { cpu with core := cpu.core.updateState fun state => { state with halted := true } }

def start : Exec Str (Runtime H) ProcessRuntimeState := do
  let rt ← Exec.get
  Exec.require (!rt.lifecycle.started) "Process lifecycle manager is already started"
  if !RoundRobinScheduler.hasRunnableProcess rt.table then do
    let state := classifyWithoutRunning rt.table
    Exec.modify fun rt => { rt with
      lifecycle := { rt.lifecycle with state := state, started := true }
      cpu := haltCpu rt.cpu }
    pure state
  else do
    let _ ← TimerPreemptiveScheduler.start
    Exec.modify fun rt => { rt with
      lifecycle := { rt.lifecycle with state := .Running, started := true } }
    pure .Running

/-- The table with the running process terminated the way the CPU stopped. -/
def terminateRunning (rt : Runtime H) (terminatedPid : ProcessId) (finalContext : ProcessContext) :
    Except Str ProcessTable :=
  let state := rt.cpu.core.state
  if state.hasError then
    rt.table.fault terminatedPid finalContext state.memory rt.lifecycle.fault_exit_code
      state.errorMessage
  else
    rt.table.terminate terminatedPid finalContext state.memory
      (rt.cpu.core.processExitRequest.getD rt.lifecycle.normal_exit_code)

/-- Switch to a `Ready` process of the staged table, if there is one. -/
def dispatchReady (stagedTable : ProcessTable) : Exec Str (Runtime H) ProcessId := do
  let rt ← Exec.get
  if (stagedTable.processIdsInState .Ready).isEmpty then do
    Exec.modify fun rt => { rt with table := stagedTable }
    pure 0
  else do
    let (nextPid, d) ← Exec.lift (match dispatchNext ⟨rt.cpu, stagedTable, rt.scheduler⟩ with
      | (.ok nextPid, d) => .ok (nextPid, d)
      | (.error e, _) => .error e)
    Exec.modify (Runtime.dispatchRef.set d)
    pure nextPid

/-- What `step` does once the CPU has stopped. -/
def terminateStopped : Exec Str (Runtime H) ProcessLifecycleStepResult := do
  let rt ← Exec.get
  let terminatedPid ← Exec.lift rt.table.runningProcessId
  let faulted := rt.cpu.core.state.hasError
  let hasRequestedExitCode := !faulted && rt.cpu.core.processExitRequest.isSome
  let finalContext ← Exec.lift (captureProcessContextSnapshot terminatedPid rt.cpu)
  let stagedTable ← Exec.lift (terminateRunning rt terminatedPid finalContext)
  let nextPid ← dispatchReady stagedTable
  Exec.modify fun rt => { rt with
    cpu := if hasRequestedExitCode then
        { rt.cpu with core := { rt.cpu.core with processExitRequest := none } }
      else rt.cpu
    lifecycle := { rt.lifecycle with
      termination_count := rt.lifecycle.termination_count + 1
      fault_count := rt.lifecycle.fault_count + if faulted then 1 else 0 } }
  Exec.modify fun rt =>
    if nextPid ≠ 0 then { rt with lifecycle := { rt.lifecycle with state := .Running } }
    else { rt with
      lifecycle := { rt.lifecycle with state := classifyWithoutRunning rt.table }
      cpu := haltCpu rt.cpu }
  let rt ← Exec.get
  pure {
    state := rt.lifecycle.state
    process_terminated := true
    process_faulted := faulted
    terminated_pid := terminatedPid
    running_pid := nextPid }

def step [LongDouble] : Exec Str (Runtime H) ProcessLifecycleStepResult := do
  let rt ← Exec.get
  Exec.require rt.lifecycle.started "Process lifecycle manager is not started"
  if rt.lifecycle.state ≠ .Running then pure ⟨rt.lifecycle.state, false, false, 0, 0⟩
  else do
    Exec.require rt.table.hasRunningProcess "Running lifecycle has no Running process"
    let _ ← TimerPreemptiveScheduler.step
    let rt ← Exec.get
    if !rt.cpu.core.state.halted && !rt.cpu.core.state.hasError then do
      let runningPid ← Exec.lift rt.table.runningProcessId
      pure ⟨rt.lifecycle.state, false, false, 0, runningPid⟩
    else terminateStopped

end ProcessLifecycleManager

end ZeroCpu.Kernel
