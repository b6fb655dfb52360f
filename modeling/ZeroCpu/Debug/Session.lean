import Mathlib.Data.Finset.Sort
import ZeroCpu.Debug.Condition
import ZeroCpu.Debug.Symbols
import ZeroCpu.Kernel.Confinement
import ZeroCpu.Trace.Details

/-!
# A debugged process

Reference: `include/zero_cpu/debug/DebugSession.hpp`, `src/debug/DebugSession.cpp`.

A session has a CPU of its own, with no devices, on which it steps the one process of an image.
-/

namespace ZeroCpu.Debug

open Library Binary Kernel

/-- `MemoryWatchMode`. -/
inductive MemoryWatchMode where
  | Read
  | Write
  | Access
deriving DecidableEq, Repr

/-- `memoryWatchModeToString`. -/
def memoryWatchModeToString : MemoryWatchMode → Str
  | .Read => "Read"
  | .Write => "Write"
  | .Access => "Access"

/-- `MemoryWatchpoint`. -/
structure MemoryWatchpoint where
  id : ℕ := 0
  address : ℕ := 0
  size : ℕ := 1
  mode : MemoryWatchMode := .Access
deriving DecidableEq

/-- The address after the last one watched. -/
def MemoryWatchpoint.endExclusive (watchpoint : MemoryWatchpoint) : ℕ :=
  watchpoint.address + watchpoint.size

/-- `ConditionalBreakpoint`. -/
structure ConditionalBreakpoint where
  id : ℕ := 0
  address : ℕ := 0
  condition : DebugCondition := {}
deriving DecidableEq

/-- `DebugStopReason`. -/
inductive DebugStopReason where
  | Ready
  | StepComplete
  | Breakpoint
  | ConditionalBreakpoint
  | Watchpoint
  | ProgramEnd
  | Halted
  | Fault
  | StepLimit
deriving DecidableEq, Repr

/-- `DebugStop`. -/
structure DebugStop where
  reason : DebugStopReason := .Ready
  pc : ℕ := 0
  executed_steps : ℕ := 0
  total_steps : ℕ := 0
  message : Str := []
  has_conditional_breakpoint : Bool := false
  conditional_breakpoint_id : ℕ := 0
  conditional_expression : Str := []
  conditional_actual_value : Word := 0
  has_watchpoint : Bool := false
  watchpoint_id : ℕ := 0
  watchpoint_mode : MemoryWatchMode := .Access
  watchpoint_address : ℕ := 0
  watchpoint_size : ℕ := 0
  access_mode : MemoryWatchMode := .Access
  access_address : ℕ := 0
deriving DecidableEq

/-- A conditional breakpoint whose condition holds, and the value found. -/
structure ConditionalBreakpointHit where
  breakpoint : ConditionalBreakpoint
  actual_value : Word

/-- A watchpoint that the last event touched, and the access. -/
structure WatchpointHit where
  watchpoint : MemoryWatchpoint
  access_mode : MemoryWatchMode
  access_address : ℕ

/-- `DebugSession`. -/
structure DebugSession where
  cpu : CPU Unit
  loaded : Bool
  source_name : Str
  metadata : ExecutableMetadata
  symbols : DebugSymbols := {}
  breakpoints : Finset ℕ := ∅
  conditional_breakpoints : List ConditionalBreakpoint := []
  next_conditional_breakpoint_id : ℕ := 1
  watchpoints : List MemoryWatchpoint := []
  next_watchpoint_id : ℕ := 1
  total_steps : ℕ := 0
  last_stop : DebugStop := {}

namespace DebugSession

/-- A default-constructed session. -/
def initial : DebugSession where
  cpu := CPU.new ()
  loaded := false
  source_name := []
  metadata :=
    { source_name := []
      format_major_version := kMajorVersion
      format_minor_version := kMinorVersion
      endianness := .Little
      memory_size := 0
      code_base := 0
      code_size := 0
      code_end_exclusive := 0
      entry_offset := 0
      entry_point := 0
      data_base := 0
      data_size := 0
      data_end_exclusive := 0
      user_data_begin := 0
      user_data_end_exclusive := 0
      user_stack_begin := 0
      user_stack_end_exclusive := 0 }

/-- The method of a session. -/
abbrev Method (α : Type) : Type := Exec Str DebugSession α

/-! ## Loading -/

/-- The image's process on a CPU, in its initial context. -/
def stageImage (image : ProcessImage) : Exec Str (CPU Unit) Unit := do
  let addressSpace ← Exec.lift (ProcessAddressSpace.ofImage image)
  addressSpace.activate
  restoreProcessContext (initialContext 1 image)
  Exec.modify fun cpu => { cpu with trace := [] }

/-- `DebugSession::loadImage`. -/
def loadImage (image : ProcessImage) : Method Unit := do
  Exec.lift (validateProcessImage image)
  match stageImage image (CPU.new ()) with
  | (.error message, _) => Exec.throw message
  | (.ok (), stagedCpu) => Exec.modify fun _ =>
      { cpu := stagedCpu
        loaded := true
        source_name := image.metadata.source_name
        metadata := image.metadata
        last_stop := { pc := stagedCpu.core.state.pc } }

/-- `DebugSession::requireLoaded`. -/
def requireLoaded : Method Unit := do
  let session ← Exec.get
  Exec.require session.loaded "Debugger session has no loaded executable"

/-- `loadSymbolsFile` on a file with the given text. -/
def loadSymbolsFile (path text : Str) : Method Unit := do
  requireLoaded
  let symbols ← Exec.lift (DebugSymbols.readFile path text)
  Exec.modify fun session => { session with symbols := symbols }

/-! ## Breakpoints -/

/-- The address is that of an instruction. -/
def validateBreakpointAddress (session : DebugSession) (address : ℕ) : Except Str Unit := do
  reject (address < session.metadata.code_base ∨ address ≥ session.metadata.code_end_exclusive)
    "Breakpoint address is outside the executable code section"
  reject ((address - session.metadata.code_base) % kInstructionSize ≠ 0)
    "Breakpoint address is not instruction-aligned"

/-- `DebugSession::addBreakpoint`. -/
def addBreakpoint (address : ℕ) : Method Bool := do
  requireLoaded
  let session ← Exec.get
  Exec.lift (session.validateBreakpointAddress address)
  Exec.modify fun session => { session with breakpoints := insert address session.breakpoints }
  pure (decide (address ∉ session.breakpoints))

/-- `DebugSession::removeBreakpoint`. -/
def removeBreakpoint (address : ℕ) : Method Bool := do
  requireLoaded
  let session ← Exec.get
  Exec.modify fun session => { session with breakpoints := session.breakpoints.erase address }
  pure (decide (address ∈ session.breakpoints))

/-- `DebugSession::hasBreakpoint`. -/
def hasBreakpoint (address : ℕ) : Method Bool := do
  requireLoaded
  Exec.gets fun session => decide (address ∈ session.breakpoints)

/-- `DebugSession::clearBreakpoints`. -/
def clearBreakpoints : Method Unit := do
  requireLoaded
  Exec.modify fun session => { session with breakpoints := ∅ }

/-- `DebugSession::addConditionalBreakpoint`. -/
def addConditionalBreakpoint (address : ℕ) (condition : DebugCondition) : Method ℕ := do
  requireLoaded
  let session ← Exec.get
  Exec.lift (session.validateBreakpointAddress address)
  Exec.lift (condition.validateForCPU session.cpu)
  let existing := session.conditional_breakpoints.find? fun existing =>
    existing.address == address && existing.condition.expression == condition.expression
  match existing with
  | some existing => pure existing.id
  | none => do
      let id := session.next_conditional_breakpoint_id
      Exec.require (id != sizeMax) "Conditional breakpoint ID space exhausted"
      Exec.modify fun session => { session with
        next_conditional_breakpoint_id := id + 1
        conditional_breakpoints := session.conditional_breakpoints ++ [⟨id, address, condition⟩] }
      pure id

/-- `DebugSession::removeConditionalBreakpoint`. -/
def removeConditionalBreakpoint (id : ℕ) : Method Bool := do
  requireLoaded
  let session ← Exec.get
  Exec.modify fun session => { session with
    conditional_breakpoints := session.conditional_breakpoints.eraseP fun existing =>
      existing.id == id }
  pure (session.conditional_breakpoints.any fun existing => existing.id == id)

/-- `DebugSession::clearConditionalBreakpoints`. -/
def clearConditionalBreakpoints : Method Unit := do
  requireLoaded
  Exec.modify fun session => { session with conditional_breakpoints := [] }

/-! ## Watchpoints -/

/-- The range is not empty and lies in the memory. -/
def validateWatchpointRange (session : DebugSession) (address size : ℕ) : Except Str Unit := do
  reject (size = 0) "Watchpoint size must be greater than zero"
  let memorySize := session.cpu.core.state.memory.size
  reject (address ≥ memorySize ∨ size > memorySize - address)
    "Watchpoint range is outside process memory"

/-- `DebugSession::addWatchpoint`. -/
def addWatchpoint (address size : ℕ) (mode : MemoryWatchMode) : Method ℕ := do
  requireLoaded
  let session ← Exec.get
  Exec.lift (session.validateWatchpointRange address size)
  let existing := session.watchpoints.find? fun existing =>
    existing.address == address && existing.size == size && existing.mode == mode
  match existing with
  | some existing => pure existing.id
  | none => do
      let id := session.next_watchpoint_id
      Exec.require (id != sizeMax) "Watchpoint ID space exhausted"
      Exec.modify fun session => { session with
        next_watchpoint_id := id + 1
        watchpoints := session.watchpoints ++ [⟨id, address, size, mode⟩] }
      pure id

/-- `DebugSession::removeWatchpoint`. -/
def removeWatchpoint (id : ℕ) : Method Bool := do
  requireLoaded
  let session ← Exec.get
  Exec.modify fun session => { session with
    watchpoints := session.watchpoints.eraseP fun existing => existing.id == id }
  pure (session.watchpoints.any fun existing => existing.id == id)

/-- `DebugSession::clearWatchpoints`. -/
def clearWatchpoints : Method Unit := do
  requireLoaded
  Exec.modify fun session => { session with watchpoints := [] }

/-! ## Stops -/

/-- Assign `last_stop_` and return it. -/
def reportStop (stop : DebugSession → DebugStop) : Method DebugStop := do
  Exec.modify fun session => { session with last_stop := stop session }
  Exec.gets DebugSession.last_stop

/-- A stop, which the session keeps as its last one. -/
def makeStop (reason : DebugStopReason) (executedSteps : ℕ) (message : Str) : Method DebugStop :=
  reportStop fun session =>
    { reason := reason
      pc := session.cpu.core.state.pc
      executed_steps := executedSteps
      total_steps := session.total_steps
      message := message }

/-- The PC is behind the last instruction. -/
def atProgramEnd (session : DebugSession) : Bool :=
  session.cpu.core.state.pc == session.metadata.code_end_exclusive

/-- The stop of a session that waits for its first command. -/
def readyStop (session : DebugSession) (executedSteps : ℕ) : DebugStop where
  reason := .Ready
  pc := session.cpu.core.state.pc
  executed_steps := executedSteps
  total_steps := session.total_steps

/-- A stop where the CPU cannot go on, and `Ready`, which is not reported, where it can. -/
def classifyStoppedState (executedSteps : ℕ) : Method DebugStop := do
  let session ← Exec.get
  let state := session.cpu.core.state
  if state.hasError then makeStop .Fault executedSteps state.errorMessage
  else if state.halted then makeStop .Halted executedSteps []
  else if session.atProgramEnd then makeStop .ProgramEnd executedSteps []
  else pure (session.readyStop executedSteps)

/-- The first conditional breakpoint of the address whose condition holds. -/
def findConditionalBreakpointHit (cpu : CPU Unit) (address : ℕ) :
    List ConditionalBreakpoint → Except Str (Option ConditionalBreakpointHit)
  | [] => .ok none
  | breakpoint :: rest =>
      if breakpoint.address ≠ address then findConditionalBreakpointHit cpu address rest
      else do
        breakpoint.condition.validateForCPU cpu
        let actual ← breakpoint.condition.actualValue cpu
        let matched ← breakpoint.condition.evaluate cpu
        if matched then pure (some ⟨breakpoint, actual⟩)
        else findConditionalBreakpointHit cpu address rest

/-- A stop at a conditional breakpoint. -/
def makeConditionalBreakpointStop (hit : ConditionalBreakpointHit) (executedSteps : ℕ) :
    Method DebugStop := do
  let stop ← makeStop .ConditionalBreakpoint executedSteps
    ("Conditional breakpoint " ++ toStr hit.breakpoint.id ++ " matched: "
      ++ hit.breakpoint.condition.expression)
  reportStop fun _ => { stop with
    has_conditional_breakpoint := true
    conditional_breakpoint_id := hit.breakpoint.id
    conditional_expression := hit.breakpoint.condition.expression
    conditional_actual_value := hit.actual_value }

/-- The first watchpoint on the eight bytes at `address` for this kind of access. -/
def matchWatchpoint (accessMode : MemoryWatchMode) (address : ℕ)
    (watchpoints : List MemoryWatchpoint) : Option MemoryWatchpoint :=
  watchpoints.find? fun watchpoint =>
    (watchpoint.mode == .Access || watchpoint.mode == accessMode)
      && (decide (watchpoint.address < address + 8) && decide (address < watchpoint.endExclusive))

/-- `findWatchpointHit` on the last event of the trace. -/
def watchpointHit (watchpoints : List MemoryWatchpoint) (event : TraceEvent) :
    Option WatchpointHit :=
  let detail := event.memoryDetail
  if !detail.active || !detail.has_address || (!detail.is_read && !detail.is_write) then none
  else
    let accessMode : MemoryWatchMode := if detail.is_write then .Write else .Read
    (matchWatchpoint accessMode detail.address watchpoints).map fun watchpoint =>
      ⟨watchpoint, accessMode, detail.address⟩

/-- The first watchpoint that the last event touches. -/
def findWatchpointHit (session : DebugSession) : Option WatchpointHit :=
  if session.watchpoints.isEmpty then none
  else session.cpu.trace.getLast?.bind (watchpointHit session.watchpoints)

/-- A stop at a watchpoint. -/
def makeWatchpointStop (hit : WatchpointHit) (executedSteps : ℕ) : Method DebugStop := do
  let stop ← makeStop .Watchpoint executedSteps
    ("Watchpoint " ++ toStr hit.watchpoint.id ++ " matched "
      ++ memoryWatchModeToString hit.access_mode ++ " at address " ++ toStr hit.access_address)
  reportStop fun _ => { stop with
    has_watchpoint := true
    watchpoint_id := hit.watchpoint.id
    watchpoint_mode := hit.watchpoint.mode
    watchpoint_address := hit.watchpoint.address
    watchpoint_size := hit.watchpoint.size
    access_mode := hit.access_mode
    access_address := hit.access_address }

/-! ## Execution -/

/-- `cpu_.step(); ++total_steps_`. -/
def stepCpu [LongDouble] (session : DebugSession) : DebugSession :=
  { session with cpu := session.cpu.step, total_steps := session.total_steps + 1 }

/-- The checks behind a CPU step: a fault, a halt, a watchpoint and the end of the program. -/
def stopAfterStep (executedSteps : ℕ) : Method (Option DebugStop) := do
  let after ← classifyStoppedState executedSteps
  if after.reason = .Fault ∨ after.reason = .Halted then pure (some after)
  else do
    let session ← Exec.get
    match session.findWatchpointHit with
    | some hit => some <$> makeWatchpointStop hit executedSteps
    | none => pure (if after.reason ≠ .Ready then some after else none)

/-- The breakpoint checks at PC. -/
def stopAtBreakpoint (executedSteps : ℕ) : Method (Option DebugStop) := do
  let session ← Exec.get
  let pc := session.cpu.core.state.pc
  if ← hasBreakpoint pc then some <$> makeStop .Breakpoint executedSteps []
  else do
    let hit ← Exec.lift
      (findConditionalBreakpointHit session.cpu pc session.conditional_breakpoints)
    match hit with
    | some hit => some <$> makeConditionalBreakpointStop hit executedSteps
    | none => pure none

/-- The checks at the top of a loop: where the CPU cannot go on, and the breakpoints. -/
def stopBeforeStep (executedSteps : ℕ) (skipInitialBreakpoint : Bool) :
    Method (Option DebugStop) := do
  let stopped ← classifyStoppedState executedSteps
  if stopped.reason ≠ .Ready then pure (some stopped)
  else if skipInitialBreakpoint then pure none
  else stopAtBreakpoint executedSteps

/-- Return the stop that a check finds, and go on without one. -/
def unlessStopped (check : Method (Option DebugStop)) (next : Method DebugStop) :
    Method DebugStop := do
  match ← check with
  | some stop => pure stop
  | none => next

/-- `DebugSession::step`. -/
def step [LongDouble] : Method DebugStop := do
  requireLoaded
  let stopped ← classifyStoppedState 0
  if stopped.reason ≠ .Ready then pure stopped
  else do
    Exec.modify stepCpu
    unlessStopped (stopAfterStep 1) (makeStop .StepComplete 1 [])

/-- The loop of `continueExecution`, which may still take as many steps as its last argument
says. -/
def continueLoop [LongDouble] (executedSteps : ℕ) (skipInitialBreakpoint : Bool) :
    ℕ → Method DebugStop
  | 0 => unlessStopped (stopBeforeStep executedSteps skipInitialBreakpoint)
      (makeStop .StepLimit executedSteps "Debugger continue step limit reached")
  | remaining + 1 => unlessStopped (stopBeforeStep executedSteps skipInitialBreakpoint) do
      Exec.modify stepCpu
      unlessStopped (stopAfterStep (executedSteps + 1))
        (continueLoop (executedSteps + 1) false remaining)

/-- The last stop was at a breakpoint, and PC is still there. -/
def resumesFromBreakpoint (session : DebugSession) : Bool :=
  (session.last_stop.reason == .Breakpoint || session.last_stop.reason == .ConditionalBreakpoint)
    && session.last_stop.pc == session.cpu.core.state.pc

/-- `DebugSession::continueExecution`. -/
def continueExecution [LongDouble] (maxSteps : ℕ) : Method DebugStop := do
  requireLoaded
  Exec.require (maxSteps != 0) "Debugger continue step limit must be greater than zero"
  let session ← Exec.get
  continueLoop 0 session.resumesFromBreakpoint maxSteps

/-- The comparison of source lines; an address without a line is still on the line before. -/
def stopAtSourceLine (sourceLineBefore executedSteps : ℕ) : Method (Option DebugStop) := do
  let session ← Exec.get
  match session.symbols.sourceLineForAddress session.cpu.core.state.pc with
  | .ok sourceLineAfter =>
      if sourceLineAfter ≠ sourceLineBefore then some <$> makeStop .StepComplete executedSteps []
      else pure none
  | .error _ => pure none

/-- The loop of `stepSourceLine`. From its second round on, the breakpoint checks at its top repeat
those at its bottom. -/
def sourceLineLoop [LongDouble] (sourceLineBefore executedSteps : ℕ)
    (skipInitialBreakpoint : Bool) : ℕ → Method DebugStop
  | 0 => unlessStopped (stopBeforeStep executedSteps skipInitialBreakpoint)
      (makeStop .StepLimit executedSteps "Debugger source step limit reached")
  | remaining + 1 => unlessStopped (stopBeforeStep executedSteps skipInitialBreakpoint) do
      Exec.modify stepCpu
      unlessStopped (stopAfterStep (executedSteps + 1)) <|
        unlessStopped (stopAtBreakpoint (executedSteps + 1)) <|
          unlessStopped (stopAtSourceLine sourceLineBefore (executedSteps + 1)) <|
            sourceLineLoop sourceLineBefore (executedSteps + 1) false remaining

/-- `DebugSession::stepSourceLine`. -/
def stepSourceLine [LongDouble] (maxSteps : ℕ) : Method DebugStop := do
  requireLoaded
  Exec.require (maxSteps != 0) "Debugger source step limit must be greater than zero"
  let initialState ← classifyStoppedState 0
  if initialState.reason ≠ .Ready then pure initialState
  else do
    let session ← Exec.get
    Exec.require session.symbols.hasSourceLocations
      "Debugger source stepping requires a source map"
    let sourceLineBefore ← Exec.lift
      (session.symbols.sourceLineForAddress session.cpu.core.state.pc)
    sourceLineLoop sourceLineBefore 0 true maxSteps

end DebugSession

end ZeroCpu.Debug
