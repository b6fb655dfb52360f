import ZeroCpu.Kernel.ProcessContext
import ZeroCpu.Library.SortedMap

/-!
# Processes and the process table

Reference: `src/kernel/ProcessAddressSpace.cpp`, `src/kernel/ProcessControlBlock.cpp`,
`src/kernel/ProcessState.cpp`, `src/kernel/ProcessTable.cpp`.

Every method of the table and of a process checks before it assigns, so a method is a function to
the new value that fails without one.
-/

namespace ZeroCpu.Kernel

open Library Binary MemoryMap

variable {W : Type}

/-! ## Address spaces -/

/-- `ProcessAddressSpace`. -/
structure ProcessAddressSpace where
  memory : Memory
  executable_metadata : Option ExecutableMetadata
  executable : Option BinaryProgram

namespace ProcessAddressSpace

/-- The space was made of an executable image. -/
def hasExecutableImage (space : ProcessAddressSpace) : Bool := space.executable.isSome

/-- The part of `validate` about an executable. -/
def validateExecutable (memory : Memory) (metadata : ExecutableMetadata) (program : BinaryProgram) :
    Except Str Unit := do
  validateExecutableMetadata metadata
  reject (program.header.major_version ≠ metadata.format_major_version
      ∨ program.header.minor_version ≠ metadata.format_minor_version
      ∨ program.header.endianness ≠ metadata.endianness)
    "Process address space executable header does not match metadata"
  reject (program.header.code_size.toNat ≠ metadata.code_size
      ∨ program.code.length ≠ metadata.code_size)
    "Process address space executable code size does not match metadata"
  reject (program.header.entry_point.toNat ≠ metadata.entry_offset)
    "Process address space executable entry point does not match metadata"
  reject (program.header.data_base.toNat ≠ metadata.data_base
      ∨ program.header.data_size.toNat ≠ metadata.data_size
      ∨ program.data.length ≠ metadata.data_size)
    "Process address space executable data section does not match metadata"
  let code ← memory.readBytes metadata.code_base metadata.code_size
  reject (code ≠ program.code) "Process address space code memory was modified"

/-- `ProcessAddressSpace::validate`. -/
def validate (space : ProcessAddressSpace) : Except Str Unit := do
  reject (space.memory.size ≠ kDefaultMemorySize)
    "Process address space memory size does not match the protected memory layout"
  match space.executable_metadata, space.executable with
  | none, none => pure ()
  | some metadata, some program => validateExecutable space.memory metadata program
  | _, _ => .error "Process address space executable metadata is incomplete"

/-- `ProcessAddressSpace::ProcessAddressSpace(Memory)`. -/
def ofMemory (memory : Memory) : Except Str ProcessAddressSpace := do
  let space : ProcessAddressSpace := ⟨memory, none, none⟩
  space.validate
  pure space

/-- `ProcessAddressSpace::ProcessAddressSpace()`. -/
def new : Except Str ProcessAddressSpace := ofMemory (Memory.ofSize kDefaultMemorySize)

/-- `ProcessAddressSpace::ProcessAddressSpace(const ProcessImage&)`. -/
def ofImage (image : ProcessImage) : Except Str ProcessAddressSpace := do
  let space : ProcessAddressSpace :=
    { memory := image.memory
      executable_metadata := some image.metadata
      executable := some image.executable }
  validateProcessImage image
  space.validate
  pure space

/-- `ProcessAddressSpace::replaceMemory`. -/
def replaceMemory (space : ProcessAddressSpace) (memory : Memory) :
    Except Str ProcessAddressSpace := do
  let staged := { space with memory := memory }
  staged.validate
  pure staged

/-- `ProcessAddressSpace::activate`: a copy of the CPU is loaded, and handed over when nothing
threw. -/
def activate (space : ProcessAddressSpace) : Exec Str (CPU W) Unit := Exec.staged do
  Exec.lift space.validate
  match space.executable with
  | some program => do
      let cpu ← Exec.get
      CPU.loadBinaryProgram program
      Exec.modify fun staged => { staged with trace := cpu.trace }
  | none => pure ()
  Exec.modify fun staged =>
    { staged with core := staged.core.updateState fun state => { state with memory := space.memory } }

end ProcessAddressSpace

/-! ## Process states -/

/-- `ProcessState`. -/
inductive ProcessState where
  | Ready
  | Running
  | Blocked
  | Terminated
deriving DecidableEq, Repr

/-- `processStateToString`. -/
def processStateToString : ProcessState → Str
  | .Ready => "Ready"
  | .Running => "Running"
  | .Blocked => "Blocked"
  | .Terminated => "Terminated"

/-- `canTransitionProcessState`. -/
def canTransitionProcessState (source target : ProcessState) : Bool :=
  if source = target then true
  else match source with
    | .Ready => target == .Running || target == .Terminated
    | .Running => target == .Ready || target == .Blocked || target == .Terminated
    | .Blocked => target == .Ready || target == .Terminated
    | .Terminated => false

/-- `ProcessTerminationKind`. -/
inductive ProcessTerminationKind where
  | NormalExit
  | CpuFault
deriving DecidableEq, Repr

/-! ## Process control blocks -/

/-- `ProcessControlBlock`. -/
structure ProcessControlBlock where
  context : ProcessContext
  addressSpace : ProcessAddressSpace
  state : ProcessState
  hasExitCode : Bool
  exitCode : Word
  terminationKind : ProcessTerminationKind
  terminationMessage : Str

namespace ProcessControlBlock

/-- The constructor with a context and an address space. -/
def make (context : ProcessContext) (addressSpace : ProcessAddressSpace) (state : ProcessState) :
    Except Str ProcessControlBlock := do
  validateProcessContext context
  reject (state = .Terminated) "ProcessControlBlock cannot start Terminated"
  pure {
    context := context
    addressSpace := addressSpace
    state := state
    hasExitCode := false
    exitCode := 0
    terminationKind := .NormalExit
    terminationMessage := [] }

/-- `ProcessControlBlock::pid`. -/
def pid (process : ProcessControlBlock) : ProcessId := process.context.pid

/-- `ProcessControlBlock::replaceContext`. -/
def replaceContext (process : ProcessControlBlock) (context : ProcessContext) :
    Except Str ProcessControlBlock := do
  reject (process.state = .Terminated) "Cannot update a terminated process context"
  validateProcessContext context
  reject (context.pid ≠ process.context.pid) "Process context PID mismatch"
  pure { process with context := context }

/-- `ProcessControlBlock::replaceRuntimeState`. -/
def replaceRuntimeState (process : ProcessControlBlock) (context : ProcessContext)
    (memory : Memory) : Except Str ProcessControlBlock := do
  reject (process.state = .Terminated) "Cannot update a terminated process state"
  validateProcessContext context
  reject (context.pid ≠ process.context.pid) "Process runtime state PID mismatch"
  let staged ← process.addressSpace.replaceMemory memory
  pure { process with context := context, addressSpace := staged }

/-- `ProcessControlBlock::replaceFinalContext`. -/
def replaceFinalContext (process : ProcessControlBlock) (context : ProcessContext) :
    Except Str ProcessControlBlock := do
  reject (process.state = .Terminated) "Cannot update a terminated process context"
  validateProcessContextSnapshot context
  reject (context.pid ≠ process.context.pid) "Process final context PID mismatch"
  pure { process with context := context }

/-- `ProcessControlBlock::replaceFinalState`. -/
def replaceFinalState (process : ProcessControlBlock) (context : ProcessContext)
    (memory : Memory) : Except Str ProcessControlBlock := do
  reject (process.state = .Terminated) "Cannot update a terminated process state"
  validateProcessContextSnapshot context
  reject (context.pid ≠ process.context.pid) "Process final state PID mismatch"
  let staged ← process.addressSpace.replaceMemory memory
  pure { process with context := context, addressSpace := staged }

/-- `ProcessControlBlock::transitionTo`. -/
def transitionTo (process : ProcessControlBlock) (state : ProcessState) :
    Except Str ProcessControlBlock := do
  reject (state = .Terminated) "Use terminate() to terminate a process"
  reject (¬ canTransitionProcessState process.state state)
    ("Invalid process state transition: " ++ processStateToString process.state ++ " -> "
      ++ processStateToString state)
  pure { process with state := state }

/-- `ProcessControlBlock::terminate`. -/
def terminate (process : ProcessControlBlock) (exitCode : Word) (kind : ProcessTerminationKind)
    (message : Str) : Except Str ProcessControlBlock := do
  reject (process.state = .Terminated) "Process is already terminated"
  reject (¬ canTransitionProcessState process.state .Terminated)
    "Process cannot transition to Terminated"
  pure { process with
    state := .Terminated
    hasExitCode := true
    exitCode := exitCode
    terminationKind := kind
    terminationMessage := message }

end ProcessControlBlock

/-! ## The process table -/

/-- `ProcessTable`. -/
structure ProcessTable where
  processes : SortedMap ProcessId ProcessControlBlock
  next_pid : ProcessId
  running_pid : ProcessId

/-- `std::numeric_limits<ProcessId>::max()`. -/
def processIdMax : ℕ := 2 ^ 32 - 1

/-- The context a process of the image starts with. -/
def contextFromImage (pid : ProcessId) (image : ProcessImage) : Except Str ProcessContext := do
  validateProcessImage image
  let context : ProcessContext :=
    { pid := pid
      registers := image.initial_registers
      flags := image.initial_flags
      pc := image.initial_pc
      sp := image.initial_sp
      privilege := image.initial_privilege
      has_user_code_range := true
      user_code_begin := image.metadata.code_base
      user_code_end_exclusive := image.metadata.code_end_exclusive
      user_stack_begin := image.metadata.user_stack_begin
      user_stack_end_exclusive := image.metadata.user_stack_end_exclusive
      kernel_stack_pointer := image.initial_kernel_stack_pointer }
  validateProcessContext context
  pure context

namespace ProcessTable

/-- The table of a new kernel. -/
def empty : ProcessTable := ⟨.empty, 1, 0⟩

/-- The next PID; the last one is never given out. -/
def requireNextProcessId (table : ProcessTable) : Except Str ProcessId := do
  reject (table.next_pid = 0) "Process ID space exhausted"
  pure table.next_pid

/-- The end of every `createProcess`: `emplace` and `commitAllocatedProcessId`. -/
def insert (table : ProcessTable) (pid : ProcessId) (process : ProcessControlBlock) :
    Except Str (ProcessId × ProcessTable) := do
  reject (table.processes.find? pid).isSome "Process table PID collision"
  pure (pid, { table with
    processes := table.processes.emplace pid process
    next_pid := if pid = processIdMax then 0 else pid + 1 })

/-- `ProcessTable::createProcess(ProcessContext)`. -/
def createProcessFromContext (table : ProcessTable) (context : ProcessContext) :
    Except Str (ProcessId × ProcessTable) := do
  let pid ← table.requireNextProcessId
  let context := { context with pid := pid }
  validateProcessContext context
  let addressSpace ← ProcessAddressSpace.new
  let process ← ProcessControlBlock.make context addressSpace .Ready
  table.insert pid process

/-- `ProcessTable::createProcess(const CPU&)`. -/
def createProcessFromCpu (table : ProcessTable) (cpu : CPU W) :
    Except Str (ProcessId × ProcessTable) := do
  let pid ← table.requireNextProcessId
  let context ← captureProcessContext pid cpu
  let addressSpace ← ProcessAddressSpace.ofMemory cpu.core.state.memory
  let process ← ProcessControlBlock.make context addressSpace .Ready
  table.insert pid process

/-- `ProcessTable::createProcess(const ProcessImage&)`. -/
def createProcess (table : ProcessTable) (image : ProcessImage) :
    Except Str (ProcessId × ProcessTable) := do
  let pid ← table.requireNextProcessId
  let context ← contextFromImage pid image
  let addressSpace ← ProcessAddressSpace.ofImage image
  let process ← ProcessControlBlock.make context addressSpace .Ready
  reject (table.processes.find? pid).isSome "Process table PID collision"
  pure (pid, { table with
    processes := table.processes.emplace pid process
    next_pid := if pid = processIdMax then 0 else pid + 1 })

/-- `ProcessTable::size`. -/
def size (table : ProcessTable) : ℕ := table.processes.entries.length

/-- `ProcessTable::processIds`. -/
def processIds (table : ProcessTable) : List ProcessId := table.processes.keys

/-- `ProcessTable::processIdsInState`. -/
def processIdsInState (table : ProcessTable) (state : ProcessState) : List ProcessId :=
  (table.processes.entries.filter fun entry => entry.2.state == state).map Prod.fst

/-- `ProcessTable::process`. -/
def process (table : ProcessTable) (pid : ProcessId) : Except Str ProcessControlBlock :=
  match table.processes.find? pid with
  | some process => .ok process
  | none => .error ("Unknown process PID: " ++ toStr pid)

/-- Replace a process of the table. -/
def setProcess (table : ProcessTable) (pid : ProcessId) (process : ProcessControlBlock) :
    ProcessTable :=
  { table with processes := table.processes.modify pid fun _ => process }

/-- `ProcessTable::updateContext`. -/
def updateContext (table : ProcessTable) (pid : ProcessId) (context : ProcessContext) :
    Except Str ProcessTable := do
  let process ← table.process pid
  let process ← process.replaceContext context
  pure (table.setProcess pid process)

/-- `ProcessTable::updateRuntimeState`. -/
def updateRuntimeState (table : ProcessTable) (pid : ProcessId) (context : ProcessContext)
    (memory : Memory) : Except Str ProcessTable := do
  let process ← table.process pid
  let process ← process.replaceRuntimeState context memory
  pure (table.setProcess pid process)

/-- `ProcessTable::transition`. -/
def transition (table : ProcessTable) (pid : ProcessId) (state : ProcessState) :
    Except Str ProcessTable := do
  reject (state = .Terminated) "Use terminate() to terminate a process"
  let process ← table.process pid
  reject (state = .Running ∧ table.running_pid ≠ 0 ∧ table.running_pid ≠ pid)
    "Another process is already Running"
  let updated ← process.transitionTo state
  pure { table.setProcess pid updated with
    running_pid :=
      if state = .Running then pid
      else if process.state = .Running then 0
      else table.running_pid }

/-- The shared body of `terminate(pid, finalContext, finalMemory, exitCode)` and
`fault(pid, finalContext, finalMemory, exitCode, message)`. -/
def finish (table : ProcessTable) (pid : ProcessId) (finalContext : ProcessContext)
    (finalMemory : Memory) (exitCode : Word) (kind : ProcessTerminationKind) (message : Str) :
    Except Str ProcessTable := do
  let process ← table.process pid
  let staged ← process.replaceFinalState finalContext finalMemory
  let staged ← staged.terminate exitCode kind message
  pure { table.setProcess pid staged with
    running_pid := if process.state = .Running then 0 else table.running_pid }

/-- `ProcessTable::terminate`. -/
def terminate (table : ProcessTable) (pid : ProcessId) (finalContext : ProcessContext)
    (finalMemory : Memory) (exitCode : Word) : Except Str ProcessTable :=
  table.finish pid finalContext finalMemory exitCode .NormalExit []

/-- `ProcessTable::fault`. -/
def fault (table : ProcessTable) (pid : ProcessId) (finalContext : ProcessContext)
    (finalMemory : Memory) (exitCode : Word) (message : Str) : Except Str ProcessTable :=
  table.finish pid finalContext finalMemory exitCode .CpuFault message

/-- `ProcessTable::terminate(pid, exitCode)`. -/
def terminateAsIs (table : ProcessTable) (pid : ProcessId) (exitCode : Word) :
    Except Str ProcessTable := do
  let process ← table.process pid
  let updated ← process.terminate exitCode .NormalExit []
  pure { table.setProcess pid updated with
    running_pid := if process.state = .Running then 0 else table.running_pid }

/-- The shared body of `terminate(pid, finalContext, exitCode)` and
`fault(pid, finalContext, exitCode, message)`. -/
def finishContext (table : ProcessTable) (pid : ProcessId) (finalContext : ProcessContext)
    (exitCode : Word) (kind : ProcessTerminationKind) (message : Str) : Except Str ProcessTable := do
  let process ← table.process pid
  let staged ← process.replaceFinalContext finalContext
  let staged ← staged.terminate exitCode kind message
  pure { table.setProcess pid staged with
    running_pid := if process.state = .Running then 0 else table.running_pid }

/-- `terminate` with a context only. -/
def terminateContext (table : ProcessTable) (pid : ProcessId) (finalContext : ProcessContext)
    (exitCode : Word) : Except Str ProcessTable :=
  table.finishContext pid finalContext exitCode .NormalExit []

/-- `fault` with a context only. -/
def faultContext (table : ProcessTable) (pid : ProcessId) (finalContext : ProcessContext)
    (exitCode : Word) (message : Str) : Except Str ProcessTable :=
  table.finishContext pid finalContext exitCode .CpuFault message

/-- `ProcessTable::hasRunningProcess`. -/
def hasRunningProcess (table : ProcessTable) : Bool := table.running_pid != 0

/-- `ProcessTable::runningProcessId`. -/
def runningProcessId (table : ProcessTable) : Except Str ProcessId := do
  reject (¬ table.hasRunningProcess) "Process table has no Running process"
  pure table.running_pid

end ProcessTable

end ZeroCpu.Kernel
