import ZeroCpu.Core.Execute
import ZeroCpu.Kernel.ProcessImage

/-!
# Process contexts

Reference: `include/zero_cpu/kernel/ProcessContext.hpp`, `src/kernel/ProcessContext.cpp`, and the
accessors of `src/core/CPU.cpp` that it uses.

`PrivilegeLevel` has no third value, so `validatePrivilege` has nothing to check.
-/

namespace ZeroCpu

open Library MemoryMap

variable {W : Type}

namespace CPU

/-- `CPU::validateUserCodeRange`. -/
def validateUserCodeRange (m : Setup W) (rangeBegin endExclusive : ℕ) : Except Str Unit := do
  reject (rangeBegin ≥ endExclusive) "User code range must be non-empty"
  if m.hasBinaryProgram then
    let codeEnd := m.binaryCodeBase + m.binaryCodeSize
    reject (rangeBegin < m.binaryCodeBase ∨ endExclusive > codeEnd)
      "User code range is outside loaded binary code"
    reject ((rangeBegin - m.binaryCodeBase) % kInstructionSize ≠ 0
        ∨ (endExclusive - m.binaryCodeBase) % kInstructionSize ≠ 0)
      "User binary code range must be instruction-aligned"
  else
    reject (m.program = [] ∨ endExclusive > m.program.length)
      "User code range is outside loaded program"

/-- `CPU::setUserCodeRange`. -/
def setUserCodeRange (rangeBegin endExclusive : ℕ) : Exec Str (CPU W) Unit := do
  let cpu ← Exec.get
  Exec.lift (validateUserCodeRange cpu.setup rangeBegin endExclusive)
  Exec.modify fun cpu => { cpu with
    setup := { cpu.setup with
      hasUserCodeRange := true
      userCodeBegin := rangeBegin
      userCodeEndExclusive := endExclusive } }

/-- `CPU::clearUserCodeRange`. -/
def clearUserCodeRange : Exec Str (CPU W) Unit := Exec.modify fun cpu => { cpu with
  setup := { cpu.setup with
    hasUserCodeRange := false
    userCodeBegin := 0
    userCodeEndExclusive := 0 } }

/-- `CPU::setKernelStackPointer`. -/
def setKernelStackPointer (value : ℕ) : Exec Str (CPU W) Unit := do
  let cpu ← Exec.get
  Exec.require (!cpu.core.usingKernelInterruptStack)
    "Cannot change Kernel stack pointer while active"
  Exec.lift (requireStackPointerInRange value kKernelStackBase kKernelStackEndExclusive)
  Exec.modify fun cpu => { cpu with core := { cpu.core with kernelStackPointer := value } }

end CPU

namespace Kernel

/-- `ProcessId`; PID 0 stands for no process. -/
abbrev ProcessId : Type := ℕ

/-- `ProcessContext`. -/
structure ProcessContext where
  pid : ProcessId
  registers : RegisterFile
  flags : BitVec 32
  pc : ℕ
  sp : ℕ
  privilege : PrivilegeLevel
  has_user_code_range : Bool
  user_code_begin : ℕ
  user_code_end_exclusive : ℕ
  user_stack_begin : ℕ
  user_stack_end_exclusive : ℕ
  kernel_stack_pointer : ℕ

/-- `validateUserCodeRangeShape`. -/
def validateUserCodeRangeShape (context : ProcessContext) : Except Str Unit :=
  if !context.has_user_code_range then
    reject (context.privilege = .user) "User process context requires a code range"
  else
    reject (context.user_code_begin ≥ context.user_code_end_exclusive)
      "Process context User code range must be non-empty"

/-- `validateUserProgramCounter`. -/
def validateUserProgramCounter (context : ProcessContext) : Except Str Unit :=
  reject (context.privilege = .user
      ∧ (context.pc < context.user_code_begin ∨ context.pc ≥ context.user_code_end_exclusive))
    "Process context PC is outside User code range"

/-- `validateUserStackRange`. -/
def validateUserStackRange (context : ProcessContext) : Except Str Unit := do
  reject (context.user_stack_begin ≥ context.user_stack_end_exclusive)
    "Process context User stack range must be non-empty"
  reject (context.user_stack_begin < kUserStackBase
      ∨ context.user_stack_end_exclusive > kUserStackEndExclusive)
    "Process context User stack range is outside protected User stack memory"
  reject (context.user_stack_begin % CPU.kStackSlotSize ≠ 0
      ∨ context.user_stack_end_exclusive % CPU.kStackSlotSize ≠ 0)
    "Process context User stack range is not slot-aligned"
  reject (context.sp < context.user_stack_begin ∨ context.sp > context.user_stack_end_exclusive)
    "Process context SP is outside User stack range"
  reject ((context.sp - context.user_stack_begin) % CPU.kStackSlotSize ≠ 0)
    "Process context SP is not slot-aligned"

/-- `validateKernelStackPointer`. -/
def validateKernelStackPointer (context : ProcessContext) : Except Str Unit := do
  reject (¬ isKernelStackPointer context.kernel_stack_pointer)
    "Process context Kernel SP is outside Kernel stack range"
  reject ((context.kernel_stack_pointer - kKernelStackBase) % CPU.kStackSlotSize ≠ 0)
    "Process context Kernel SP is not slot-aligned"

/-- `validateProcessContextSnapshot`. -/
def validateProcessContextSnapshot (context : ProcessContext) : Except Str Unit := do
  reject (context.pid = 0) "Process context PID must be non-zero"
  validateUserCodeRangeShape context
  validateUserStackRange context
  validateKernelStackPointer context

/-- `validateProcessContext`. -/
def validateProcessContext (context : ProcessContext) : Except Str Unit := do
  validateProcessContextSnapshot context
  validateUserProgramCounter context

/-- `validateProcessContextForCPU`. -/
def validateProcessContextForCPU (context : ProcessContext) (cpu : CPU W) : Except Str Unit := do
  validateProcessContext context
  if context.has_user_code_range then
    CPU.validateUserCodeRange cpu.setup context.user_code_begin context.user_code_end_exclusive

/-- `requireContextSwitchableCPU`. -/
def requireContextSwitchableCPU (cpu : CPU W) : Except Str Unit :=
  reject cpu.core.usingKernelInterruptStack
    "Cannot capture or restore process context while Kernel interrupt stack is active"

/-- The context that the CPU's members describe. -/
def contextOf (pid : ProcessId) (cpu : CPU W) : ProcessContext where
  pid := pid
  registers := cpu.core.state.registers
  flags := cpu.core.state.flags.bits
  pc := cpu.core.state.pc
  sp := cpu.core.state.sp
  privilege := cpu.core.state.privilegeLevel
  has_user_code_range := cpu.setup.hasUserCodeRange
  user_code_begin := if cpu.setup.hasUserCodeRange then cpu.setup.userCodeBegin else 0
  user_code_end_exclusive :=
    if cpu.setup.hasUserCodeRange then cpu.setup.userCodeEndExclusive else 0
  user_stack_begin := kUserStackBase
  user_stack_end_exclusive := kUserStackEndExclusive
  kernel_stack_pointer := cpu.core.kernelStackPointer

/-- `captureProcessContextSnapshot`. -/
def captureProcessContextSnapshot (pid : ProcessId) (cpu : CPU W) : Except Str ProcessContext := do
  requireContextSwitchableCPU cpu
  validateProcessContextSnapshot (contextOf pid cpu)
  pure (contextOf pid cpu)

/-- `captureProcessContext`. -/
def captureProcessContext (pid : ProcessId) (cpu : CPU W) : Except Str ProcessContext := do
  let context ← captureProcessContextSnapshot pid cpu
  validateProcessContext context
  pure context

/-- The assignments to `CPUState` at the end of `restoreProcessContext`. -/
def restoreState (context : ProcessContext) (state : CPUState) : CPUState :=
  { state with
    registers := context.registers
    flags := ⟨context.flags⟩
    pc := context.pc
    sp := context.sp
    privilegeLevel := context.privilege
    hasError := false
    errorMessage := []
    halted := false }

/-- `restoreProcessContext`. -/
def restoreProcessContext (context : ProcessContext) : Exec Str (CPU W) Unit := do
  let cpu ← Exec.get
  Exec.lift (validateProcessContextForCPU context cpu)
  Exec.lift (requireContextSwitchableCPU cpu)
  if context.has_user_code_range then
    CPU.setUserCodeRange context.user_code_begin context.user_code_end_exclusive
  else
    CPU.clearUserCodeRange
  CPU.setKernelStackPointer context.kernel_stack_pointer
  Exec.modify fun cpu => { cpu with core := cpu.core.updateState (restoreState context) }

end Kernel

end ZeroCpu
