import Mathlib.Data.Finset.Basic
import ZeroCpu.Debug.Condition
import ZeroCpu.Debug.Symbols
import ZeroCpu.System.Runner
import ZeroCpu.Trace.Details

/-!
# Debugged processes

Reference: `include/zero_cpu/debug/MultiProcessDebugSession.hpp`,
`src/debug/MultiProcessDebugSession.cpp`.

A session runs the processes of several images under the preemptive scheduler, with breakpoints and
watchpoints for each process. As in the runner, the caller's devices own a world `H`.
-/

namespace ZeroCpu.Debug

open Library Binary Kernel Sys

variable {H : Type}

/-- `MultiProcessDebugOptions`. -/
structure MultiProcessDebugOptions (H : Type) where
  timer_vector : UInt8 := 240
  quantum : BitVec 64 := 2
  timer_payload : Word := 0
  default_continue_steps : BitVec 64 := 100000
  normal_exit_code : Word := 0
  fault_exit_code : Word := -1
  mmio_bus : Option (MMIOBus H) := none
  software_interrupt_handler : Option (SoftwareInterruptHandler (Board H)) := none

/-- `ProcessMemoryWatchMode`. -/
inductive ProcessMemoryWatchMode where
  | Read
  | Write
  | Access
deriving DecidableEq, Repr

/-- `processMemoryWatchModeToString`. -/
def processMemoryWatchModeToString : ProcessMemoryWatchMode → Str
  | .Read => "Read"
  | .Write => "Write"
  | .Access => "Access"

/-- `ProcessConditionalBreakpoint`. -/
structure ProcessConditionalBreakpoint where
  id : ℕ := 0
  pid : ProcessId := 0
  address : ℕ := 0
  condition : DebugCondition := {}
deriving DecidableEq

/-- `ProcessMemoryWatchpoint`. -/
structure ProcessMemoryWatchpoint where
  id : ℕ := 0
  pid : ProcessId := 0
  address : ℕ := 0
  size : ℕ := 1
  mode : ProcessMemoryWatchMode := .Access
deriving DecidableEq

/-- The address after the last one watched. -/
def ProcessMemoryWatchpoint.endExclusive (watchpoint : ProcessMemoryWatchpoint) : ℕ :=
  watchpoint.address + watchpoint.size

/-- `MultiProcessDebugStopReason`. -/
inductive MultiProcessDebugStopReason where
  | Ready
  | StepComplete
  | Breakpoint
  | ConditionalBreakpoint
  | Watchpoint
  | ProcessTerminated
  | ProcessFaulted
  | RuntimeCompleted
  | Deadlocked
  | StepLimit
deriving DecidableEq, Repr

/-- `MultiProcessDebugStop`. -/
structure MultiProcessDebugStop where
  reason : MultiProcessDebugStopReason := .Ready
  runtime_state : ProcessRuntimeState := .Ready
  executed_steps : ℕ := 0
  total_steps : ℕ := 0
  running_pid : ProcessId := 0
  selected_pid : ProcessId := 0
  has_debug_hit : Bool := false
  hit_pid : ProcessId := 0
  hit_address : ℕ := 0
  has_conditional_breakpoint : Bool := false
  conditional_breakpoint_id : ℕ := 0
  conditional_expression : Str := []
  conditional_actual_value : Word := 0
  has_watchpoint : Bool := false
  watchpoint_id : ℕ := 0
  watchpoint_mode : ProcessMemoryWatchMode := .Access
  watchpoint_address : ℕ := 0
  watchpoint_size : ℕ := 0
  access_mode : ProcessMemoryWatchMode := .Access
  access_address : ℕ := 0
  process_terminated : Bool := false
  process_faulted : Bool := false
  terminated_pid : ProcessId := 0
  message : Str := []
deriving DecidableEq

/-- `ProcessDebugSnapshot`. -/
structure ProcessDebugSnapshot where
  pid : ProcessId
  source_name : Str
  state : ProcessState
  context : ProcessContext
  memory : Memory
  has_exit_code : Bool
  exit_code : Word
  termination_kind : ProcessTerminationKind
  termination_message : Str
  has_executable_image : Bool
  code_base : ℕ
  code_end_exclusive : ℕ
  entry_point : ℕ
  data_base : ℕ
  data_size : ℕ
  running : Bool

/-- The process has ended. -/
def ProcessDebugSnapshot.terminated (snapshot : ProcessDebugSnapshot) : Bool :=
  snapshot.state == .Terminated && snapshot.has_exit_code

/-- `ProcessSoftwareInterruptDebugRecord`. -/
structure ProcessSoftwareInterruptDebugRecord where
  lifecycle_step : ℕ
  pid : ProcessId
  observation : SoftwareInterruptObservation

/-- `ContextSwitchRecord`. -/
structure ContextSwitchRecord where
  lifecycle_step : ℕ
  from_pid : ProcessId
  to_pid : ProcessId
  preempted : Bool
  caused_by_termination : Bool

/-- A session, its CPU, process table, schedulers and lifecycle manager together in `runtime`. -/
structure MultiProcessDebugSession (H : Type) where
  runtime : Runtime H
  started : Bool := false
  runtime_state : ProcessRuntimeState := .Ready
  total_steps : ℕ := 0
  selected_pid : ProcessId := 0
  symbols : SortedMap ProcessId DebugSymbols := .empty
  breakpoints : Finset (ProcessId × ℕ) := ∅
  conditional_breakpoints : List ProcessConditionalBreakpoint := []
  next_conditional_breakpoint_id : ℕ := 1
  watchpoints : List ProcessMemoryWatchpoint := []
  next_watchpoint_id : ℕ := 1
  resume_skip_active : Bool := false
  resume_skip_pid : ProcessId := 0
  resume_skip_address : ℕ := 0
  software_interrupts : List ProcessSoftwareInterruptDebugRecord := []
  context_switches : List ContextSwitchRecord := []
  last_stop : MultiProcessDebugStop := {}

namespace MultiProcessDebugSession

/-- A conditional breakpoint whose condition holds, and the value found. -/
structure ConditionalBreakpointHit where
  breakpoint : ProcessConditionalBreakpoint
  actual_value : Word

/-- A watchpoint that the last event touched, and the access. -/
structure WatchpointHit where
  watchpoint : ProcessMemoryWatchpoint
  access_mode : ProcessMemoryWatchMode
  access_address : ℕ

/-- The method of a session. -/
abbrev Method (H α : Type) : Type := Exec Str (MultiProcessDebugSession H) α

/-- The runtime of a session. -/
def runtimeRef : Ref (MultiProcessDebugSession H) (Runtime H) where
  get := runtime
  set runtime session := { session with runtime := runtime }
  get_set _ _ := rfl
  set_get _ := rfl
  set_set _ _ _ := rfl

/-- The session has been started. -/
def requireStarted : Method H Unit := do
  let session ← Exec.get
  Exec.require session.started "Multi-process debugger is not started"

/-! ## Processes -/

/-- The process of a PID; an unknown PID throws. -/
def requireProcess (session : MultiProcessDebugSession H) (pid : ProcessId) :
    Except Str ProcessControlBlock :=
  match session.runtime.table.processes.find? pid with
  | some process => .ok process
  | none => .error ("Unknown process PID " ++ toStr pid)

/-- What a session shows of a process; the CPU's state counts for the running one. -/
def processSnapshot (session : MultiProcessDebugSession H) (pid : ProcessId) :
    Except Str ProcessDebugSnapshot := do
  let process ← session.requireProcess pid
  let rt := session.runtime
  let running := rt.table.hasRunningProcess && rt.table.running_pid == pid
  let context ← MultiProcessRunner.finalContext pid process rt.cpu running
  let metadata := process.addressSpace.executable_metadata
  pure {
    pid := pid
    source_name := metadata.elim [] ExecutableMetadata.source_name
    state := process.state
    context := context
    memory := if running then rt.cpu.core.state.memory else process.addressSpace.memory
    has_exit_code := process.hasExitCode
    exit_code := if process.hasExitCode then process.exitCode else 0
    termination_kind := if process.hasExitCode then process.terminationKind else .NormalExit
    termination_message := if process.hasExitCode then process.terminationMessage else []
    has_executable_image := process.addressSpace.hasExecutableImage
    code_base := metadata.elim 0 ExecutableMetadata.code_base
    code_end_exclusive := metadata.elim 0 ExecutableMetadata.code_end_exclusive
    entry_point := metadata.elim 0 ExecutableMetadata.entry_point
    data_base := metadata.elim 0 ExecutableMetadata.data_base
    data_size := metadata.elim 0 ExecutableMetadata.data_size
    running := running }

/-- The snapshot of the selected process. -/
def selectedProcessSnapshot (session : MultiProcessDebugSession H) :
    Except Str ProcessDebugSnapshot := do
  reject (session.selected_pid = 0) "No process is selected"
  session.processSnapshot session.selected_pid

/-- Selecting a process changes the selection only. -/
def selectProcess (pid : ProcessId) : Method H Unit := do
  requireStarted
  let session ← Exec.get
  let _ ← Exec.lift (session.requireProcess pid)
  Exec.modify fun session => { session with selected_pid := pid }

/-- `loadSymbolsFile` on a file with the given text. -/
def loadSymbolsFile (pid : ProcessId) (path text : Str) : Method H Unit := do
  requireStarted
  let session ← Exec.get
  let _ ← Exec.lift (session.requireProcess pid)
  let symbols ← Exec.lift (DebugSymbols.readFile path text)
  Exec.modify fun session => { session with
    symbols := (session.symbols.emplace pid {}).modify pid fun _ => symbols }

/-! ## Breakpoints -/

/-- The address is that of an instruction of the process. -/
def validateCodeAddress (session : MultiProcessDebugSession H) (pid : ProcessId) (address : ℕ) :
    Except Str Unit := do
  let process ← session.requireProcess pid
  match process.addressSpace.executable_metadata with
  | none => .error ("PID " ++ toStr pid ++ " has no executable image")
  | some metadata =>
      reject (address < metadata.code_base ∨ address ≥ metadata.code_end_exclusive
          ∨ (address - metadata.code_base) % kInstructionSize ≠ 0)
        "Breakpoint address must be inside the PID code range and instruction-aligned"

/-- `MultiProcessDebugSession::addBreakpoint`. -/
def addBreakpoint (pid : ProcessId) (address : ℕ) : Method H Bool := do
  requireStarted
  let session ← Exec.get
  Exec.lift (session.validateCodeAddress pid address)
  Exec.modify fun session => { session with
    breakpoints := insert (pid, address) session.breakpoints }
  pure (decide ((pid, address) ∉ session.breakpoints))

/-- `MultiProcessDebugSession::removeBreakpoint`. -/
def removeBreakpoint (pid : ProcessId) (address : ℕ) : Method H Bool := do
  requireStarted
  let session ← Exec.get
  Exec.modify fun session => { session with
    breakpoints := session.breakpoints.erase (pid, address) }
  pure (decide ((pid, address) ∈ session.breakpoints))

/-- `MultiProcessDebugSession::clearBreakpoints`. -/
def clearBreakpoints : Method H Unit := do
  requireStarted
  Exec.modify fun session => { session with breakpoints := ∅ }

/-- `clearBreakpoints(pid)`. -/
def clearBreakpointsOf (pid : ProcessId) : Method H Unit := do
  requireStarted
  let session ← Exec.get
  let _ ← Exec.lift (session.requireProcess pid)
  Exec.modify fun session => { session with
    breakpoints := session.breakpoints.filter fun entry => entry.1 ≠ pid }

/-- `MultiProcessDebugSession::addConditionalBreakpoint`. -/
def addConditionalBreakpoint (pid : ProcessId) (address : ℕ) (condition : DebugCondition) :
    Method H ℕ := do
  requireStarted
  let session ← Exec.get
  Exec.lift (session.validateCodeAddress pid address)
  Exec.lift (condition.validateForCPU session.runtime.cpu)
  let existing := session.conditional_breakpoints.find? fun existing =>
    existing.pid == pid && existing.address == address
      && existing.condition.expression == condition.expression
  match existing with
  | some existing => pure existing.id
  | none => do
      let id := session.next_conditional_breakpoint_id
      Exec.require (id != sizeMax) "Conditional breakpoint ID space exhausted"
      Exec.modify fun session => { session with
        next_conditional_breakpoint_id := id + 1
        conditional_breakpoints :=
          session.conditional_breakpoints ++ [⟨id, pid, address, condition⟩] }
      pure id

/-- `MultiProcessDebugSession::removeConditionalBreakpoint`. -/
def removeConditionalBreakpoint (id : ℕ) : Method H Bool := do
  requireStarted
  let session ← Exec.get
  Exec.modify fun session => { session with
    conditional_breakpoints := session.conditional_breakpoints.eraseP fun existing =>
      existing.id == id }
  pure (session.conditional_breakpoints.any fun existing => existing.id == id)

/-- `MultiProcessDebugSession::clearConditionalBreakpoints`. -/
def clearConditionalBreakpoints : Method H Unit := do
  requireStarted
  Exec.modify fun session => { session with conditional_breakpoints := [] }

/-- `clearConditionalBreakpoints(pid)`. -/
def clearConditionalBreakpointsOf (pid : ProcessId) : Method H Unit := do
  requireStarted
  let session ← Exec.get
  let _ ← Exec.lift (session.requireProcess pid)
  Exec.modify fun session => { session with
    conditional_breakpoints := session.conditional_breakpoints.filter fun breakpoint =>
      breakpoint.pid != pid }

/-! ## Watchpoints -/

/-- The range is not empty and lies in the memory of the process. -/
def validateMemoryRange (session : MultiProcessDebugSession H) (pid : ProcessId)
    (address size : ℕ) : Except Str Unit := do
  let process ← session.requireProcess pid
  reject (size = 0) "Watchpoint size must be greater than zero"
  let memorySize := process.addressSpace.memory.size
  reject (address ≥ memorySize ∨ size > memorySize - address)
    "Watchpoint range is outside the PID process memory"

/-- `MultiProcessDebugSession::addWatchpoint`. -/
def addWatchpoint (pid : ProcessId) (address size : ℕ) (mode : ProcessMemoryWatchMode) :
    Method H ℕ := do
  requireStarted
  let session ← Exec.get
  Exec.lift (session.validateMemoryRange pid address size)
  let existing := session.watchpoints.find? fun existing =>
    existing.pid == pid && existing.address == address && existing.size == size
      && existing.mode == mode
  match existing with
  | some existing => pure existing.id
  | none => do
      let id := session.next_watchpoint_id
      Exec.require (id != sizeMax) "Watchpoint ID space exhausted"
      Exec.modify fun session => { session with
        next_watchpoint_id := id + 1
        watchpoints := session.watchpoints ++ [⟨id, pid, address, size, mode⟩] }
      pure id

/-- `MultiProcessDebugSession::removeWatchpoint`. -/
def removeWatchpoint (id : ℕ) : Method H Bool := do
  requireStarted
  let session ← Exec.get
  Exec.modify fun session => { session with
    watchpoints := session.watchpoints.eraseP fun existing => existing.id == id }
  pure (session.watchpoints.any fun existing => existing.id == id)

/-- `MultiProcessDebugSession::clearWatchpoints`. -/
def clearWatchpoints : Method H Unit := do
  requireStarted
  Exec.modify fun session => { session with watchpoints := [] }

/-- `clearWatchpoints(pid)`. -/
def clearWatchpointsOf (pid : ProcessId) : Method H Unit := do
  requireStarted
  let session ← Exec.get
  let _ ← Exec.lift (session.requireProcess pid)
  Exec.modify fun session => { session with
    watchpoints := session.watchpoints.filter fun watchpoint => watchpoint.pid != pid }

/-! ## Stops -/

/-- Assign `last_stop_` and return it. -/
def reportStop (stop : MultiProcessDebugStop) : Method H MultiProcessDebugStop := do
  Exec.modify fun session => { session with last_stop := stop }
  pure stop

/-- The process on the CPU. -/
def runningPid (session : MultiProcessDebugSession H) : ProcessId :=
  if session.runtime.table.hasRunningProcess then session.runtime.table.running_pid else 0

/-- A stop, which the session keeps as its last one. -/
def makeStop (reason : MultiProcessDebugStopReason) (executedSteps : ℕ) (message : Str) :
    Method H MultiProcessDebugStop := do
  let session ← Exec.get
  reportStop {
    reason := reason
    runtime_state := session.runtime_state
    executed_steps := executedSteps
    total_steps := session.total_steps
    running_pid := session.runningPid
    selected_pid := session.selected_pid
    message := message }

/-- A stop at a breakpoint. -/
def makeBreakpointStop (pid : ProcessId) (address executedSteps : ℕ) :
    Method H MultiProcessDebugStop := do
  let stop ← makeStop .Breakpoint executedSteps
    ("PID " ++ toStr pid ++ " breakpoint at " ++ toStr address)
  reportStop { stop with
    has_debug_hit := true
    hit_pid := pid
    hit_address := address }

/-- A stop at a conditional breakpoint. -/
def makeConditionalBreakpointStop (hit : ConditionalBreakpointHit) (executedSteps : ℕ) :
    Method H MultiProcessDebugStop := do
  let stop ← makeStop .ConditionalBreakpoint executedSteps
    ("PID " ++ toStr hit.breakpoint.pid ++ " conditional breakpoint " ++ toStr hit.breakpoint.id
      ++ " matched: " ++ hit.breakpoint.condition.expression)
  reportStop { stop with
    has_debug_hit := true
    hit_pid := hit.breakpoint.pid
    hit_address := hit.breakpoint.address
    has_conditional_breakpoint := true
    conditional_breakpoint_id := hit.breakpoint.id
    conditional_expression := hit.breakpoint.condition.expression
    conditional_actual_value := hit.actual_value }

/-- A stop at a watchpoint. -/
def makeWatchpointStop (pid : ProcessId) (hit : WatchpointHit) (executedSteps : ℕ) :
    Method H MultiProcessDebugStop := do
  let stop ← makeStop .Watchpoint executedSteps
    ("PID " ++ toStr pid ++ " watchpoint " ++ toStr hit.watchpoint.id ++ " matched "
      ++ processMemoryWatchModeToString hit.access_mode ++ " at address "
      ++ toStr hit.access_address)
  reportStop { stop with
    has_debug_hit := true
    hit_pid := pid
    hit_address := hit.access_address
    has_watchpoint := true
    watchpoint_id := hit.watchpoint.id
    watchpoint_mode := hit.watchpoint.mode
    watchpoint_address := hit.watchpoint.address
    watchpoint_size := hit.watchpoint.size
    access_mode := hit.access_mode
    access_address := hit.access_address }

/-- A stop once every process has ended. -/
def makeTerminalStop (executedSteps : ℕ) : Method H MultiProcessDebugStop := do
  let session ← Exec.get
  match session.runtime_state with
  | .Completed => makeStop .RuntimeCompleted executedSteps "All processes completed"
  | .Deadlocked => makeStop .Deadlocked executedSteps "Process runtime is deadlocked"
  | .Ready => makeStop .Ready executedSteps []
  | .Running => makeStop .StepComplete executedSteps []

/-- The message that `step` puts together for a terminated process. -/
def terminationMessage (session : MultiProcessDebugSession H)
    (result : ProcessLifecycleStepResult) : Except Str Str := do
  if result.process_faulted then
    let process ← session.runtime.table.process result.terminated_pid
    reject (¬ process.hasExitCode) "Process has no termination metadata"
    let faulted := "PID " ++ toStr result.terminated_pid ++ " faulted"
    pure (if process.terminationMessage = [] then faulted
      else faulted ++ ": " ++ process.terminationMessage)
  else pure ("PID " ++ toStr result.terminated_pid ++ " terminated")

/-- The stop of a step that terminated a process. -/
def makeTerminationStop (result : ProcessLifecycleStepResult) :
    Method H MultiProcessDebugStop := do
  let session ← Exec.get
  let message ← Exec.lift (session.terminationMessage result)
  let stop ← makeStop (if result.process_faulted then .ProcessFaulted else .ProcessTerminated) 1
    message
  reportStop { stop with
    process_terminated := true
    process_faulted := result.process_faulted
    terminated_pid := result.terminated_pid }

/-! ## Hits -/

/-- The first conditional breakpoint of the address whose condition holds. -/
def findConditionalBreakpointHit {W : Type} (cpu : CPU W) (pid : ProcessId) (address : ℕ) :
    List ProcessConditionalBreakpoint → Except Str (Option ConditionalBreakpointHit)
  | [] => .ok none
  | breakpoint :: rest =>
      if breakpoint.pid ≠ pid ∨ breakpoint.address ≠ address then
        findConditionalBreakpointHit cpu pid address rest
      else do
        breakpoint.condition.validateForCPU cpu
        let actual ← breakpoint.condition.actualValue cpu
        let matched ← breakpoint.condition.evaluate cpu
        if matched then pure (some ⟨breakpoint, actual⟩)
        else findConditionalBreakpointHit cpu pid address rest

/-- `findWatchpointHit` on the last event of the trace. -/
def watchpointHit (watchpoints : List ProcessMemoryWatchpoint) (pid : ProcessId)
    (event : TraceEvent) : Option WatchpointHit :=
  let detail := event.memoryDetail
  if !detail.active || !detail.has_address || (!detail.is_read && !detail.is_write) then none
  else
    let accessMode : ProcessMemoryWatchMode := if detail.is_write then .Write else .Read
    let watched := watchpoints.find? fun watchpoint =>
      watchpoint.pid == pid && (watchpoint.mode == .Access || watchpoint.mode == accessMode)
        && (decide (watchpoint.address < detail.address + 8)
          && decide (detail.address < watchpoint.endExclusive))
    watched.map fun watchpoint => ⟨watchpoint, accessMode, detail.address⟩

/-- The first watchpoint that the last event of the process touches. -/
def findWatchpointHit (session : MultiProcessDebugSession H) (pid : ProcessId) :
    Option WatchpointHit :=
  if session.watchpoints.isEmpty then none
  else session.runtime.cpu.trace.getLast?.bind (watchpointHit session.watchpoints pid)

/-! ## The breakpoint that execution resumes from -/

/-- A stop at a breakpoint lets the next command pass it. -/
def armResumeSkipFromLastStop : Method H Unit := Exec.modify fun session =>
  if session.last_stop.reason = .Breakpoint ∨ session.last_stop.reason = .ConditionalBreakpoint then
    { session with
      resume_skip_active := true
      resume_skip_pid := session.last_stop.hit_pid
      resume_skip_address := session.last_stop.hit_address }
  else session

/-- The latch is disarmed once its process is elsewhere. -/
def refreshResumeSkip : Method H Unit := do
  let session ← Exec.get
  if !session.resume_skip_active then pure ()
  else if (session.runtime.table.processes.find? session.resume_skip_pid).isNone then
    Exec.modify fun session => { session with resume_skip_active := false }
  else do
    let snapshot ← Exec.lift (session.processSnapshot session.resume_skip_pid)
    if snapshot.terminated || snapshot.context.pc != session.resume_skip_address then
      Exec.modify fun session => { session with resume_skip_active := false }
    else pure ()

/-! ## Steps -/

/-- What `step` records of a lifecycle step from `earlier`, in which `before` was running. -/
def recordStep (earlier : Runtime H) (before : ProcessId) (result : ProcessLifecycleStepResult)
    (session : MultiProcessDebugSession H) : MultiProcessDebugSession H :=
  let rt := session.runtime
  let steps := session.total_steps + 1
  { session with
    runtime := { rt with cpu := { rt.cpu with
      core := { rt.cpu.core with softwareInterruptObservation := none } } }
    total_steps := steps
    runtime_state := result.state
    software_interrupts :=
      match rt.cpu.core.softwareInterruptObservation with
      | some observation => session.software_interrupts ++ [⟨steps, before, observation⟩]
      | none => session.software_interrupts
    context_switches :=
      if before ≠ session.runningPid then
        session.context_switches ++ [{
          lifecycle_step := steps
          from_pid := before
          to_pid := session.runningPid
          preempted :=
            decide (rt.preemptive.preemption_count > earlier.preemptive.preemption_count)
          caused_by_termination := result.process_terminated }]
      else session.context_switches }

/-- The part of `step` that steps the process `before`. -/
def stepProcess [LongDouble] (before : ProcessId) : Method H ProcessLifecycleStepResult := do
  let session ← Exec.get
  let prepared ← Exec.lift (MultiProcessRunner.completeAtEnd session.runtime)
  Exec.modify (runtimeRef.set prepared)
  let result ← Exec.zoom runtimeRef ProcessLifecycleManager.step
  Exec.modify (recordStep session.runtime before result)
  refreshResumeSkip
  pure result

/-- The stop that `step` reports. -/
def stopAfterStep (traceSizeBefore : ℕ) (before : ProcessId) (result : ProcessLifecycleStepResult) :
    Method H MultiProcessDebugStop := do
  if result.process_terminated then makeTerminationStop result
  else do
    let session ← Exec.get
    let hit :=
      if session.runtime.cpu.trace.length > traceSizeBefore then session.findWatchpointHit before
      else none
    match hit with
    | some hit => makeWatchpointStop before hit 1
    | none =>
        if session.runtime_state ≠ .Running then makeTerminalStop 1
        else makeStop .StepComplete 1 []

/-- `MultiProcessDebugSession::step`. -/
def step [LongDouble] : Method H MultiProcessDebugStop := do
  requireStarted
  let session ← Exec.get
  if session.runtime_state ≠ .Running then makeTerminalStop 0
  else do
    Exec.require session.runtime.table.hasRunningProcess "Running debugger has no Running process"
    let before ← Exec.lift session.runtime.table.runningProcessId
    let result ← stepProcess before
    stopAfterStep session.runtime.cpu.trace.length before result

/-! ## Execution -/

/-- Return the stop that a check finds, and go on without one. -/
def unlessStopped (check : Method H (Option MultiProcessDebugStop))
    (next : Method H MultiProcessDebugStop) : Method H MultiProcessDebugStop := do
  match ← check with
  | some stop => pure stop
  | none => next

/-- `skipCurrent`. -/
def skipsResumed (session : MultiProcessDebugSession H) (pid : ProcessId) (address : ℕ) : Bool :=
  session.resume_skip_active && session.resume_skip_pid == pid
    && session.resume_skip_address == address

/-- The breakpoint checks at the running process, which `skip` may switch off. -/
def stopAtBreakpoint (executedSteps : ℕ) (skip : ProcessId → ℕ → Bool) :
    Method H (Option MultiProcessDebugStop) := do
  refreshResumeSkip
  let session ← Exec.get
  let pid ← Exec.lift session.runtime.table.runningProcessId
  let address := session.runtime.cpu.core.state.pc
  if session.skipsResumed pid address || skip pid address then pure none
  else if (pid, address) ∈ session.breakpoints then
    some <$> makeBreakpointStop pid address executedSteps
  else do
    let hit ← Exec.lift (findConditionalBreakpointHit session.runtime.cpu pid address
      session.conditional_breakpoints)
    match hit with
    | some hit => some <$> makeConditionalBreakpointStop hit executedSteps
    | none => pure none

/-- The checks of `continueExecution` ahead of a step. -/
def stopBeforeStep (executedSteps : ℕ) : Method H (Option MultiProcessDebugStop) := do
  let session ← Exec.get
  if !session.runtime.table.hasRunningProcess then some <$> makeTerminalStop executedSteps
  else stopAtBreakpoint executedSteps fun _ _ => false

/-- A step of either loop, which ends on any stop but `StepComplete`. -/
def stopAtStep [LongDouble] (executedSteps : ℕ) : Method H (Option MultiProcessDebugStop) := do
  let stop ← step
  if stop.reason ≠ .StepComplete then
    some <$> reportStop { stop with executed_steps := executedSteps + 1 }
  else pure none

/-- The loop of `continueExecution`, which may still take as many steps as its last argument
says. -/
def continueLoop [LongDouble] (executedSteps : ℕ) : ℕ → Method H MultiProcessDebugStop
  | 0 => makeStop .StepLimit executedSteps "Multi-process debugger continue step limit reached"
  | remaining + 1 => unlessStopped (stopBeforeStep executedSteps) <|
      unlessStopped (stopAtStep executedSteps) (continueLoop (executedSteps + 1) remaining)

/-- The checks of `continueExecution` ahead of its loop. -/
def stopBeforeContinue (maxSteps : ℕ) : Method H (Option MultiProcessDebugStop) := do
  requireStarted
  Exec.require (maxSteps != 0) "Multi-process debugger continue limit must be greater than zero"
  let session ← Exec.get
  if session.runtime_state ≠ .Running then some <$> makeTerminalStop 0
  else pure none

/-- `MultiProcessDebugSession::continueExecution`. -/
def continueExecution [LongDouble] (maxSteps : ℕ) : Method H MultiProcessDebugStop :=
  unlessStopped (stopBeforeContinue maxSteps) do
    armResumeSkipFromLastStop
    continueLoop 0 maxSteps

/-! ## Source lines -/

/-- The constants of `stepSelectedSourceLine`. -/
structure SourceStart where
  selectedSymbols : DebugSymbols
  sourceLineBefore : ℕ
  sourceStartAddress : ℕ
deriving DecidableEq

/-- The variables of its loop. -/
structure SourceProgress where
  sourceStartSkipActive : Bool
  sourceLineChanged : Bool
deriving DecidableEq

/-- Where `stepSelectedSourceLine` starts, unless no process is left to step. -/
def findSourceStart (maxSteps : ℕ) : Method H (MultiProcessDebugStop ⊕ SourceStart) := do
  requireStarted
  Exec.require (maxSteps != 0) "Multi-process debugger source step limit must be greater than zero"
  let session ← Exec.get
  if session.runtime_state ≠ .Running then .inl <$> makeTerminalStop 0
  else do
    Exec.require (session.selected_pid != 0) "No process is selected"
    let initial ← Exec.lift session.selectedProcessSnapshot
    Exec.require (!initial.terminated)
      ("Cannot source-step terminated PID " ++ toStr session.selected_pid)
    let symbols := (session.symbols.find? session.selected_pid).getD {}
    Exec.require symbols.hasSourceLocations
      ("Selected PID " ++ toStr session.selected_pid ++ " has no source map")
    match symbols.sourceLineForAddress initial.context.pc with
    | .error _ =>
        Exec.throw ("Selected PID " ++ toStr session.selected_pid
          ++ " current PC has no source mapping")
    | .ok line => pure (.inr ⟨symbols, line, initial.context.pc⟩)

/-- The checks of `stepSelectedSourceLine` ahead of a step. -/
def stopBeforeSourceStep (start : SourceStart) (progress : SourceProgress)
    (executedSteps remaining : ℕ) : Method H (Option MultiProcessDebugStop) := do
  let session ← Exec.get
  if session.runtime_state ≠ .Running ∨ ¬ session.runtime.table.hasRunningProcess then
    some <$> makeTerminalStop executedSteps
  else do
    let hit ← stopAtBreakpoint executedSteps fun pid address =>
      progress.sourceStartSkipActive && pid == session.selected_pid
        && address == start.sourceStartAddress
    match hit with
    | some stop => pure (some stop)
    | none =>
        if progress.sourceLineChanged then some <$> makeStop .StepComplete executedSteps []
        else if remaining = 0 then
          some <$> makeStop .StepLimit executedSteps
            "Multi-process debugger source step limit reached"
        else pure none

/-- What the loop sees of the selected process behind a step. -/
def sourceProgress (start : SourceStart) : Method H SourceProgress := do
  let session ← Exec.get
  let selected ← Exec.lift session.selectedProcessSnapshot
  let line := start.selectedSymbols.sourceLineForAddress selected.context.pc
  pure {
    sourceStartSkipActive :=
      !selected.terminated && selected.context.pc == start.sourceStartAddress
    sourceLineChanged := !selected.terminated
      && match line with
        | .ok sourceLineAfter => sourceLineAfter != start.sourceLineBefore
        | .error _ => false }

/-- The loop of `stepSelectedSourceLine`, with the steps that its limit leaves. Without any the
checks find a stop, which is the last one. -/
def sourceLineLoop [LongDouble] (start : SourceStart) (progress : SourceProgress)
    (executedSteps : ℕ) : ℕ → Method H MultiProcessDebugStop
  | 0 => unlessStopped (stopBeforeSourceStep start progress executedSteps 0)
      (Exec.gets last_stop)
  | remaining + 1 =>
      unlessStopped (stopBeforeSourceStep start progress executedSteps (remaining + 1)) <|
        unlessStopped (stopAtStep executedSteps) do
          let progress ← sourceProgress start
          sourceLineLoop start progress (executedSteps + 1) remaining

/-- `MultiProcessDebugSession::stepSelectedSourceLine`. -/
def stepSelectedSourceLine [LongDouble] (maxSteps : ℕ) : Method H MultiProcessDebugStop := do
  match ← findSourceStart maxSteps with
  | .inl stop => pure stop
  | .inr start => do
      armResumeSkipFromLastStop
      sourceLineLoop start ⟨true, false⟩ 0 maxSteps

/-! ## Construction -/

/-- The checks of the options of a session. -/
def validateOptions (options : MultiProcessDebugOptions H) : Except Str Unit := do
  reject (options.quantum = 0) "Multi-process debugger quantum must be greater than zero"
  reject (options.default_continue_steps = 0)
    "Multi-process debugger continue limit must be greater than zero"

/-- The objects of a session are connected as those of the runner with these options. -/
def runOptions (options : MultiProcessDebugOptions H) : MultiProcessRunOptions H where
  timer_vector := options.timer_vector
  quantum := options.quantum
  timer_payload := options.timer_payload
  max_lifecycle_steps := options.default_continue_steps
  normal_exit_code := options.normal_exit_code
  fault_exit_code := options.fault_exit_code
  mmio_bus := options.mmio_bus
  software_interrupt_handler := options.software_interrupt_handler

/-- The constructor from images, next to the world `host` of the caller's devices. -/
def new (host : H) (images : List ProcessImage) (options : MultiProcessDebugOptions H) :
    Except Str (MultiProcessDebugSession H) := do
  let timer ← TimerDevice.make options.timer_vector options.quantum options.timer_payload
  validateOptions options
  reject (images = []) "Multi-process debugger requires at least one process image"
  let table ← MultiProcessRunner.createProcesses ProcessTable.empty images
  match ProcessLifecycleManager.start
    (MultiProcessRunner.newRuntime host (runOptions options) timer table) with
  | (.error message, _) => .error message
  | (.ok runtimeState, runtime) =>
      let session : MultiProcessDebugSession H :=
        { runtime := runtime
          started := true
          runtime_state := runtimeState
          selected_pid :=
            if runtime.table.hasRunningProcess then runtime.table.running_pid
            else runtime.table.processIds.headD 0 }
      .ok (makeStop .Ready 0 [] session).2

end MultiProcessDebugSession

end ZeroCpu.Debug
