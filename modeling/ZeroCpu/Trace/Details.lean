import Mathlib.Data.List.Infix
import ZeroCpu.Trace.ControlFlow

/-!
# The memory and stack details of a trace event

Reference: `include/zero_cpu/trace/TraceEvent.hpp`, `src/trace/TraceEvent.cpp`,
`include/zero_cpu/core/MemoryMap.hpp`.

What a `TraceEvent` says about the data access of a `LOAD` or `STORE` and about the stack word of a
`PUSH`, `POP`, `CALL` or `RET`. None of it is recorded while the instruction executes: it is put
together from the states around the step and from the list of changed bytes.
-/

namespace ZeroCpu

open Library

variable {W : Type}

/-- `MemoryTraceDetail`. -/
structure MemoryTraceDetail where
  active : Bool := false
  operation : Str := []
  address_text : Str := []
  value_text : Str := []
  destination : Str := []
  route : Str := []
  address : ℕ := 0
  value : Word := 0
  has_address : Bool := false
  has_value : Bool := false
  is_read : Bool := false
  is_write : Bool := false
  note : Str := []
deriving DecidableEq

/-- `StackTraceDetail`. -/
structure StackTraceDetail where
  active : Bool := false
  operation : Str := []
  operand_text : Str := []
  destination : Str := []
  note : Str := []
  value : Word := 0
  return_address : Word := 0
  stack_address : ℕ := 0
  sp_before : ℕ := 0
  sp_after : ℕ := 0
  target : ℕ := 0
  has_value : Bool := false
  has_return_address : Bool := false
  has_stack_address : Bool := false
  has_sp_change : Bool := false
  has_target : Bool := false
  is_push : Bool := false
  is_pop : Bool := false
  is_call : Bool := false
  is_ret : Bool := false
deriving DecidableEq

/-- The members of `ControlFlowTraceDetail` that `CALL` and `RET` set. -/
structure CallTraceDetail extends ControlFlowTraceDetail where
  return_address : ℕ := 0
  has_return_address : Bool := false
  is_call : Bool := false
  is_return : Bool := false

namespace MemoryMap

/-- The address windows that the trace names. -/
def kDebugOutputBase : ℕ := 0xF000
def kDebugOutputSize : ℕ := 0x0010
def kTimerBase : ℕ := 0xF100
def kTimerSize : ℕ := 0x0030

/-- `isDebugOutputAddress`. -/
def isDebugOutputAddress (address : ℕ) : Bool :=
  decide (address ≥ kDebugOutputBase) && decide (address < kDebugOutputBase + kDebugOutputSize)

/-- `isTimerAddress`. -/
def isTimerAddress (address : ℕ) : Bool :=
  decide (address ≥ kTimerBase) && decide (address < kTimerBase + kTimerSize)

/-- `isHardwareAddress`. -/
def isHardwareAddress (address : ℕ) : Bool :=
  decide (address ≥ kHardwareBase) && decide (address < kHardwareBase + kHardwareSize)

/-- `isMmioAddress`. -/
def isMmioAddress (address : ℕ) : Bool :=
  isDebugOutputAddress address || isTimerAddress address || isHardwareAddress address

end MemoryMap

open MemoryMap in
/-- `memoryRouteText`. -/
def memoryRouteText (address : ℕ) : Str :=
  if isDebugOutputAddress address then "DebugOutput MMIO"
  else if isTimerAddress address then "Timer MMIO"
  else if isHardwareAddress address then "Hardware Bridge MMIO"
  else if isMmioAddress address then "MMIO"
  else if address < kDefaultMemorySize then "RAM"
  else "Outside default RAM"

/-- `tryReadTraceOperandValue`: the value of an operand in a state, or the note on why there is
none. -/
def readTraceOperandValue (state : CPUState) (operand : Operand) : Except Str Word :=
  match operand with
  | .register reg => .ok (state.registers reg)
  | .immediate value => .ok value
  | .memoryAddress address => state.memory.read address.toNat
  | .registerIndirectAddress reg =>
      if (state.registers reg).toInt < 0 then .error "negative register-indirect address"
      else state.memory.read (state.registers reg).toNat
  | .label _ => .error "label operand has no runtime value snapshot"
  | .none => .error "operand is empty"

/-- `tryResolveTraceMemoryAddress`. -/
def resolveTraceMemoryAddress (state : CPUState) (operand : Operand) : Except Str ℕ :=
  match operand with
  | .memoryAddress address => .ok address.toNat
  | .registerIndirectAddress reg =>
      if (state.registers reg).toInt < 0 then .error "negative register-indirect address"
      else .ok (state.registers reg).toNat
  | _ => .error "operand is not a memory address"

/-- `appendMemoryNote` and `appendStackNote`. -/
def appendNote (note addition : Str) : Str :=
  if addition = [] then note
  else if note = [] then addition
  else note ++ ("; " ++ addition)

/-- `findMemoryChangeAt`. -/
def findMemoryChangeAt (changes : List MemoryChange) (address : ℕ) : Option MemoryChange :=
  changes.find? fun change => change.address == address

namespace TraceEvent

/-! ## Data accesses -/

/-- The address of the access, as far as the event can tell. -/
def withAddress (event : TraceEvent) (operand : Operand) (detail : MemoryTraceDetail) :
    MemoryTraceDetail :=
  match resolveTraceMemoryAddress event.before operand with
  | .ok address =>
      { detail with address := address, has_address := true, route := memoryRouteText address }
  | .error note => { detail with note := appendNote detail.note ("address unavailable: " ++ note) }

/-- The value a `LOAD` has put into a register. -/
def withLoadedValue (event : TraceEvent) (detail : MemoryTraceDetail) : MemoryTraceDetail :=
  match event.instruction.dst, event.changedRegisters with
  | .register reg, _ => { detail with
      destination := registerNameToString reg
      value := event.after.registers reg
      has_value := true
      value_text := registerNameToString reg }
  | _, change :: _ => { detail with
      destination := change.name
      value := change.after
      has_value := true
      value_text := change.name }
  | _, [] => { detail with
      note := appendNote detail.note
        "load value unavailable because no destination register changed" }

/-- The value a `STORE` writes. -/
def withStoredValue (event : TraceEvent) (detail : MemoryTraceDetail) : MemoryTraceDetail :=
  match readTraceOperandValue event.before event.instruction.src with
  | .ok value => { detail with value := value, has_value := true }
  | .error note => { detail with note := appendNote detail.note ("value unavailable: " ++ note) }

/-- The note on a device write, which no changed byte of memory shows. -/
def withDeviceNote (event : TraceEvent) (detail : MemoryTraceDetail) : MemoryTraceDetail :=
  if detail.has_address ∧ Str.ofString "MMIO" <:+: detail.route ∧ event.changedMemory = [] then
    { detail with
      note := appendNote detail.note
        "MMIO write is visible through the device, not normal RAM snapshot" }
  else detail

/-- `analyzeMemoryDetail`. -/
def memoryDetail (event : TraceEvent) : MemoryTraceDetail :=
  match event.instruction.opcode with
  | .LOAD => event.withLoadedValue (event.withAddress event.instruction.src
      { active := true
        operation := "MEMORY_READ"
        is_read := true
        address_text := event.instruction.src.toString })
  | .STORE => event.withDeviceNote (event.withStoredValue (event.withAddress event.instruction.dst
      { active := true
        operation := "MEMORY_WRITE"
        is_write := true
        address_text := event.instruction.dst.toString
        value_text := event.instruction.src.toString }))
  | _ => {}

/-! ## Stack words -/

/-- `stackOperationName`. -/
def stackOperationName : Opcode → Str
  | .PUSH => "STACK_PUSH"
  | .POP => "STACK_POP"
  | .CALL => "CALL"
  | .RET => "RETURN"
  | _ => "STACK_UNKNOWN"

/-- What the stack details of all four instructions start with. -/
def stackBase (event : TraceEvent) : StackTraceDetail where
  active := true
  operation := stackOperationName event.instruction.opcode
  operand_text := if event.instruction.dst = .none then [] else event.instruction.dst.toString
  sp_before := event.before.sp
  sp_after := event.after.sp
  has_sp_change := event.before.sp != event.after.sp

/-- The value of the operand of a `PUSH`, read again from the state before the step. -/
def withPushedOperand (event : TraceEvent) (detail : StackTraceDetail) : StackTraceDetail :=
  match readTraceOperandValue event.before event.instruction.dst with
  | .ok value => { detail with value := value, has_value := true }
  | .error note => { detail with note := appendNote detail.note ("push value unavailable: " ++ note) }

/-- The entry of the changed memory at the stack address, which is one byte, takes the place of the
value. -/
def withPushedChange (event : TraceEvent) (detail : StackTraceDetail) : StackTraceDetail :=
  match findMemoryChangeAt event.changedMemory detail.stack_address with
  | some pushed => { detail with value := pushed.after, has_value := true }
  | none => detail

/-- The stack detail of a `PUSH`. -/
def pushDetail (event : TraceEvent) : StackTraceDetail :=
  event.withPushedChange (event.withPushedOperand { event.stackBase with
    is_push := true
    stack_address := event.before.sp
    has_stack_address := true })

/-- The word below the stack pointer in the state before the step. -/
def withStackWord (event : TraceEvent) (unavailable : Str) (detail : StackTraceDetail) :
    StackTraceDetail :=
  match event.before.memory.read detail.stack_address with
  | .ok value => { detail with value := value, has_value := true }
  | .error message => { detail with note := appendNote detail.note (unavailable ++ message) }

/-- The stack detail of a `POP`. -/
def popDetail (event : TraceEvent) : StackTraceDetail :=
  let detail := { event.stackBase with
    is_pop := true
    stack_address := event.after.sp
    has_stack_address := true }
  match event.instruction.dst, event.changedRegisters with
  | .register reg, _ => { detail with
      destination := registerNameToString reg
      value := event.after.registers reg
      has_value := true }
  | _, change :: _ => { detail with
      destination := change.name
      value := change.after
      has_value := true }
  | _, [] => event.withStackWord "pop value unavailable: " detail

/-- The stack detail of a `CALL`. -/
def callDetail (event : TraceEvent) : StackTraceDetail :=
  let detail := { event.stackBase with
    is_call := true
    stack_address := event.before.sp
    has_stack_address := true
    target := event.after.pc
    has_target := true }
  match findMemoryChangeAt event.changedMemory detail.stack_address with
  | some pushed => { detail with
      return_address := pushed.after
      has_return_address := true
      value := pushed.after
      has_value := true }
  | none => { detail with
      note := appendNote detail.note "return address write was not found in changed memory" }

/-- The stack detail of a `RET`. -/
def retDetail (event : TraceEvent) : StackTraceDetail :=
  event.withStackWord "return value unavailable: " { event.stackBase with
    is_ret := true
    stack_address := event.after.sp
    has_stack_address := true
    return_address := Word.ofSize event.after.pc
    has_return_address := true
    target := event.after.pc
    has_target := true }

/-- `analyzeStackDetail`. -/
def stackDetail (event : TraceEvent) : StackTraceDetail :=
  match event.instruction.opcode with
  | .PUSH => event.pushDetail
  | .POP => event.popDetail
  | .CALL => event.callDetail
  | .RET => event.retDetail
  | _ => {}

/-! ## Return addresses -/

/-- The target of a `CALL`: its operand where that is an address, and where PC went elsewhere. -/
def callTarget (event : TraceEvent) : ℕ :=
  (readControlFlowTargetOperand event.instruction.dst).getD event.after.pc

/-- What the control-flow details of `CALL` and `RET` start with. -/
def callBase (event : TraceEvent) : CallTraceDetail where
  active := true
  operation := stackOperationName event.instruction.opcode
  operand_text := if event.instruction.dst = .none then [] else event.instruction.dst.toString
  from_pc := event.before.pc
  to_pc := event.after.pc
  taken := true
  has_taken := true
  has_target := true

/-- The return address of a `CALL`, from the stack detail and else from the changed byte. -/
def withReturnAddress (event : TraceEvent) (detail : CallTraceDetail) : CallTraceDetail :=
  if event.stackDetail.has_return_address then { detail with
    return_address := event.stackDetail.return_address.toNat
    has_return_address := true }
  else match findMemoryChangeAt event.changedMemory event.before.sp with
    | some pushed =>
        if pushed.after.toInt ≥ 0 then
          { detail with return_address := pushed.after.toNat, has_return_address := true }
        else { detail with note := "return address was not found in stack detail" }
    | none => { detail with note := "return address was not found in stack detail" }

/-- `analyzeControlFlowDetail` on a `CALL` or `RET`. -/
def callReturnDetail (event : TraceEvent) : CallTraceDetail :=
  match event.instruction.opcode with
  | .CALL => event.withReturnAddress
      { event.callBase with target := event.callTarget, is_call := true }
  | .RET => { event.callBase with
      target := event.after.pc
      is_return := true
      return_address := event.after.pc
      has_return_address := true }
  | _ => { toControlFlowTraceDetail := {} }

end TraceEvent

end ZeroCpu
