import ZeroCpu.Binary.Loader
import ZeroCpu.Core.Devices

/-!
# The CPU: memory protection, stacks and interrupts

Reference: `include/zero_cpu/core/CPU.hpp`, `src/core/CPU.cpp`.

The members of `CPU` are split by what may change them. `Setup` is what loading a program and
connecting devices fixes: no instruction can touch it. `Core` is what executing an instruction can
change, the devices' world included. A method that throws leaves the members it has already
assigned, so the methods are computations in `Exec Str (Core W)`.
-/

namespace ZeroCpu

open Library

variable {W : Type}

/-- The members of `CPU` that stay fixed while instructions execute. -/
structure Setup (W : Type) where
  program : List Instruction
  labels : LabelTable
  hasBinaryProgram : Bool
  binaryCodeBase : ℕ
  binaryEntryPoint : ℕ
  binaryCodeSize : ℕ
  hasUserCodeRange : Bool
  userCodeBegin : ℕ
  userCodeEndExclusive : ℕ
  mmioBus : Option (MMIOBus W)
  interruptController : Option (Ref W InterruptController)
  softwareInterruptHandler : Option (SoftwareInterruptHandler W)
  clockedDevices : List (ClockedDevice W)

/-- The members of `CPU` that executing an instruction may change, and the devices' world. -/
structure Core (W : Type) where
  state : CPUState
  kernelStackPointer : ℕ
  usingKernelInterruptStack : Bool
  softwareInterruptObservation : Option SoftwareInterruptObservation
  processExitRequest : Option Word
  world : W

/-- A method of `CPU`. -/
abbrev Op (W α : Type) : Type := Exec Str (Core W) α

namespace Core

/-- The devices' world as a part of the core. -/
def worldRef : Ref (Core W) W where
  get := Core.world
  set world core := { core with world := world }
  get_set _ _ := rfl
  set_get _ := rfl
  set_set _ _ _ := rfl

/-- The architectural state and the devices' world as a part of the core. -/
def stateWorldRef : Ref (Core W) (CPUState × W) where
  get core := (core.state, core.world)
  set p core := { core with state := p.1, world := p.2 }
  get_set _ _ := rfl
  set_get _ := rfl
  set_set _ _ _ := rfl

/-- Change the architectural state. -/
def updateState (f : CPUState → CPUState) (core : Core W) : Core W :=
  { core with state := f core.state }

end Core

namespace CPU

/-- The layout constants of `CPU`. -/
def kStackSlotSize : ℕ := 8
def kInterruptFrameSlotCount : ℕ := 4
def kInterruptFrameSize : ℕ := kStackSlotSize * kInterruptFrameSlotCount
def kDefaultBinaryCodeBase : ℕ := 512

/-- Assign to a part of `state_`. -/
def modifyState (f : CPUState → CPUState) : Op W Unit := Exec.modify (Core.updateState f)

/-- `state_.registers().set`. -/
def setRegister (reg : RegisterName) (value : Word) : Op W Unit :=
  modifyState fun state => { state with registers := state.registers.set reg value }

/-- `state_.flags() = ...`. -/
def modifyFlags (f : Flags → Flags) : Op W Unit :=
  modifyState fun state => { state with flags := f state.flags }

/-- `state_.setPc`. -/
def setPc (address : ℕ) : Op W Unit := modifyState fun state => { state with pc := address }

/-- `state_.memory().read`. -/
def readMemory (address : ℕ) : Op W Word := do
  let core ← Exec.get
  Exec.lift (core.state.memory.read address)

/-- `state_.memory().write`. -/
def writeMemory (address : ℕ) (value : Word) : Op W Unit := do
  let core ← Exec.get
  let memory ← Exec.lift (core.state.memory.write address value)
  modifyState fun state => { state with memory := memory }

/-! ## Data accesses -/

/-- `CPU::requireDataMemoryAccess`. -/
def requireDataMemoryAccess (address : ℕ) (operation : Str) : Op W Unit := do
  let core ← Exec.get
  Exec.require (!core.state.isUserMode || MemoryMap.isUserDataRange address 8)
    ("Memory protection violation: User mode cannot " ++ operation ++ " address " ++ toStr address)

/-- The CPU's bus, when it has one with a device at `address`. -/
def busAt (m : Setup W) (address : ℕ) : Option (MMIOBus W) :=
  m.mmioBus.filter fun bus => bus.hasDeviceAt address

/-- `CPU::readDataMemory`: a device of the bus goes before the memory. -/
def readDataMemory (m : Setup W) (address : ℕ) : Op W Word := do
  requireDataMemoryAccess address "read"
  match busAt m address with
  | some bus => Exec.zoom Core.worldRef (bus.read address)
  | none => readMemory address

/-- `CPU::writeDataMemory`: a device of the bus goes before the memory. -/
def writeDataMemory (m : Setup W) (address : ℕ) (value : Word) : Op W Unit := do
  requireDataMemoryAccess address "write"
  match busAt m address with
  | some bus => Exec.zoom Core.worldRef (bus.write address value)
  | none => writeMemory address value

/-! ## Code addresses -/

/-- `CPU::isBinaryPcInCode`. -/
def isBinaryPcInCode (m : Setup W) (pc : ℕ) : Bool :=
  let codeBegin := m.binaryCodeBase
  let codeEnd := m.binaryCodeBase + m.binaryCodeSize
  if pc < codeBegin then false
  else if pc ≥ codeEnd then false
  else if codeEnd - pc < kInstructionSize then false
  else (pc - codeBegin) % kInstructionSize == 0

/-- `CPU::isLoadedCodeAddress`. -/
def isLoadedCodeAddress (m : Setup W) (address : ℕ) : Bool :=
  if m.hasBinaryProgram then isBinaryPcInCode m address
  else decide (address < m.program.length)

/-- `CPU::requireExecutionAddress`. -/
def requireExecutionAddress (m : Setup W) (address : ℕ) (privilege : PrivilegeLevel) :
    Except Str Unit :=
  if privilege ≠ .user then .ok ()
  else if m.hasUserCodeRange ∧ address ≥ m.userCodeBegin ∧ address < m.userCodeEndExclusive
      ∧ isLoadedCodeAddress m address then .ok ()
  else .error ("Execution protection violation: User mode cannot execute address "
    ++ toStr address)

/-- `CPU::requireCurrentPcExecutable`. -/
def requireCurrentPcExecutable (m : Setup W) : Op W Unit := do
  let core ← Exec.get
  Exec.lift (requireExecutionAddress m core.state.pc core.state.privilegeLevel)

/-- `CPU::setPcForExecution`. -/
def setPcForExecution (m : Setup W) (address : ℕ) : Op W Unit := do
  let core ← Exec.get
  Exec.lift (requireExecutionAddress m address core.state.privilegeLevel)
  setPc address

/-- `static_cast<std::size_t>` of a value that must not be negative. -/
def checkedSize (value : Word) (error : Str) : Except Str ℕ :=
  if value.toInt < 0 then .error error else .ok value.toNat

/-- A return address off the stack; a negative word throws. -/
def checkedReturnAddress (returnAddress : Word) (context : Str) : Except Str ℕ :=
  checkedSize returnAddress context

/-- `CPU::requireInstructionPrivilege`. -/
def requireInstructionPrivilege (opcode : Opcode) : Op W Unit := do
  let core ← Exec.get
  if !core.state.isUserMode then pure ()
  else match opcode with
    | .HALT | .IRET | .EI | .DI =>
        Exec.throw ("Privilege violation: " ++ opcode.name ++ " requires Kernel mode")
    | _ => pure ()

/-! ## Stacks -/

/-- `CPU::activeStackBase`. -/
def activeStackBase (core : Core W) : ℕ :=
  if core.state.isUserMode then MemoryMap.kUserStackBase
  else if core.usingKernelInterruptStack then MemoryMap.kKernelStackBase
  else CPUState.kDefaultStackBase

/-- `CPU::activeStackEndExclusive`. -/
def activeStackEndExclusive (core : Core W) : ℕ :=
  if core.state.isUserMode then MemoryMap.kUserStackEndExclusive
  else if core.usingKernelInterruptStack then MemoryMap.kKernelStackEndExclusive
  else core.state.memory.size

/-- `CPU::requireStackPointerInRange`. -/
def requireStackPointerInRange (sp stackBase stackEndExclusive : ℕ) : Except Str Unit := do
  reject (sp < stackBase) "Stack pointer is below stack base"
  reject ((sp - stackBase) % kStackSlotSize ≠ 0) "Stack pointer is not slot-aligned"
  reject (sp > stackEndExclusive) "Stack pointer is outside memory"

/-- `CPU::requireStackPushSlotsAt`. -/
def requireStackPushSlotsAt (sp stackBase stackEndExclusive slotCount : ℕ) : Except Str Unit := do
  requireStackPointerInRange sp stackBase stackEndExclusive
  reject (slotCount > (stackEndExclusive - sp) / kStackSlotSize) "Stack overflow"

/-- `CPU::requireStackPopSlotsAt`. -/
def requireStackPopSlotsAt (sp stackBase stackEndExclusive slotCount : ℕ) : Except Str Unit := do
  requireStackPointerInRange sp stackBase stackEndExclusive
  reject (slotCount > (sp - stackBase) / kStackSlotSize) "Stack underflow"

/-- `CPU::requireStackPushSlots`. -/
def requireStackPushSlots (slotCount : ℕ) : Op W Unit := do
  let core ← Exec.get
  Exec.lift (requireStackPushSlotsAt core.state.sp (activeStackBase core)
    (activeStackEndExclusive core) slotCount)

/-- `CPU::requireStackPopSlots`. -/
def requireStackPopSlots (slotCount : ℕ) : Op W Unit := do
  let core ← Exec.get
  Exec.lift (requireStackPopSlotsAt core.state.sp (activeStackBase core)
    (activeStackEndExclusive core) slotCount)

/-- `state_.setSp`, mirrored into `kernel_stack_pointer_` while the Kernel interrupt stack is
active. -/
def setStackPointer (sp : ℕ) : Op W Unit := Exec.modify fun core =>
  { core with
    state := { core.state with sp := sp }
    kernelStackPointer := if core.usingKernelInterruptStack then sp else core.kernelStackPointer }

/-- `CPU::pushValue`. -/
def pushValue (value : Word) : Op W Unit := do
  requireStackPushSlots 1
  let core ← Exec.get
  writeMemory core.state.sp value
  setStackPointer (core.state.sp + kStackSlotSize)

/-- `CPU::popValue`. -/
def popValue : Op W Word := do
  requireStackPopSlots 1
  let core ← Exec.get
  let value ← readMemory (core.state.sp - kStackSlotSize)
  setStackPointer (core.state.sp - kStackSlotSize)
  pure value

/-- `CPU::peekValue`. -/
def peekValue : Op W Word := do
  requireStackPopSlots 1
  let core ← Exec.get
  readMemory (core.state.sp - kStackSlotSize)

/-! ## Interrupt frames -/

/-- Where `pushInterruptFrame` puts the frame: on the Kernel stack for an interrupted User, on the
active stack otherwise. -/
def interruptFrameBase : Op W ℕ := do
  let core ← Exec.get
  if core.state.privilegeLevel = .user then
    Exec.lift (requireStackPointerInRange core.state.sp MemoryMap.kUserStackBase
      MemoryMap.kUserStackEndExclusive)
    Exec.lift (requireStackPushSlotsAt core.kernelStackPointer MemoryMap.kKernelStackBase
      MemoryMap.kKernelStackEndExclusive kInterruptFrameSlotCount)
    pure core.kernelStackPointer
  else
    requireStackPushSlots kInterruptFrameSlotCount
    pure core.state.sp

/-- `CPU::pushInterruptFrame`. -/
def pushInterruptFrame (returnAddress : ℕ) : Op W Unit := do
  let core ← Exec.get
  let interruptedPrivilege := core.state.privilegeLevel
  let interruptedSp := core.state.sp
  let frameBase ← interruptFrameBase
  writeMemory frameBase (Word.ofSize returnAddress)
  writeMemory (frameBase + kStackSlotSize) (packFlags core.state.flags)
  writeMemory (frameBase + kStackSlotSize * 2) (privilegeLevelToRaw interruptedPrivilege)
  writeMemory (frameBase + kStackSlotSize * 3) (Word.ofSize interruptedSp)
  Exec.modify fun core => { core with
    state := { core.state with privilegeLevel := .kernel }
    usingKernelInterruptStack :=
      if interruptedPrivilege = .user then true else core.usingKernelInterruptStack }
  setStackPointer (frameBase + kInterruptFrameSize)

/-- The stack an interrupt return goes back to. -/
def requireRestoredStackPointer (restoredSp : ℕ) (restoredPrivilege : PrivilegeLevel) :
    Op W Unit := do
  let core ← Exec.get
  if restoredPrivilege = .user then
    Exec.lift (requireStackPointerInRange restoredSp MemoryMap.kUserStackBase
      MemoryMap.kUserStackEndExclusive)
  else if core.usingKernelInterruptStack then
    Exec.lift (requireStackPointerInRange restoredSp MemoryMap.kKernelStackBase
      MemoryMap.kKernelStackEndExclusive)
  else
    Exec.lift (requireStackPointerInRange restoredSp CPUState.kDefaultStackBase
      core.state.memory.size)

/-- `CPU::restoreInterruptFrame`. -/
def restoreInterruptFrame (m : Setup W) (returnAddressError : Str) (allowUserCodeEnd : Bool) :
    Op W Unit := do
  requireStackPopSlots kInterruptFrameSlotCount
  let core ← Exec.get
  let frameBase := core.state.sp - kInterruptFrameSize
  let returnAddressValue ← readMemory frameBase
  let flagsValue ← readMemory (frameBase + kStackSlotSize)
  let privilegeValue ← readMemory (frameBase + kStackSlotSize * 2)
  let savedSpValue ← readMemory (frameBase + kStackSlotSize * 3)
  let restoredPrivilege ← Exec.lift (privilegeLevelFromRaw privilegeValue)
  let restoredPc ← Exec.lift (checkedReturnAddress returnAddressValue returnAddressError)
  let restoredSp ← Exec.lift (checkedSize savedSpValue "Negative saved stack pointer")
  let returningToUserCodeEnd := allowUserCodeEnd && restoredPrivilege == .user
    && m.hasUserCodeRange && restoredPc == m.userCodeEndExclusive
  if !returningToUserCodeEnd then
    Exec.lift (requireExecutionAddress m restoredPc restoredPrivilege)
  requireRestoredStackPointer restoredSp restoredPrivilege
  modifyFlags fun flags => restoreFlags flags flagsValue
  modifyState fun state => { state with privilegeLevel := restoredPrivilege, pc := restoredPc }
  if restoredPrivilege = .user then
    -- Back in User mode the Kernel stack is empty again from this frame's base on.
    Exec.modify fun core => { core with
      state := { core.state with sp := restoredSp }
      kernelStackPointer :=
        if core.usingKernelInterruptStack then frameBase else core.kernelStackPointer
      usingKernelInterruptStack := false }
  else
    setStackPointer restoredSp

/-! ## Interrupt service -/

/-- `CPU::servicePendingInterruptIfNeeded`. -/
def servicePendingInterruptIfNeeded (m : Setup W) : Op W Bool := do
  let core ← Exec.get
  match m.interruptController with
  | none => pure false
  | some r =>
      if !(r.get core.world).hasPending then pure false
      else do
        let (request, controller) ← Exec.lift (r.get core.world).acknowledge
        Exec.modify fun core => { core with world := r.set controller core.world }
        let handlerAddress ← Exec.lift (controller.vectorHandler request.vector)
        if m.hasBinaryProgram then
          Exec.require (isBinaryPcInCode m handlerAddress)
            "Interrupt handler is outside loaded binary code section"
        else
          Exec.require (decide (handlerAddress < m.program.length))
            "Interrupt handler is outside loaded program"
        pushInterruptFrame core.state.pc
        setRegister .R0 (Word.ofSize request.vector.toNat)
        setRegister .R1 request.payload
        setPc handlerAddress
        pure true

/-- `CPU::serviceHostSoftwareInterrupt`. -/
def serviceHostSoftwareInterrupt (m : Setup W) (vector : UInt8) (returnAddress : ℕ) :
    Op W Bool :=
  match m.softwareInterruptHandler with
  | none => pure false
  | some handler =>
      if !handler.handles vector then pure false
      else do
        pushInterruptFrame returnAddress
        setRegister .R0 (Word.ofSize vector.toNat)
        let result ← Exec.onError
          (Exec.zoom Core.stateWorldRef (handler.handle vector m.mmioBus))
          (restoreInterruptFrame m "Negative host software interrupt return address" false)
        restoreInterruptFrame m "Negative host software interrupt return address"
          (result.disposition == .TerminateProcess)
        Exec.modify fun core => { core with softwareInterruptObservation := some ⟨vector, result⟩ }
        if result.disposition = .TerminateProcess then
          Exec.modify fun core => { core with
            processExitRequest := some result.exit_code
            state := { core.state with halted := true } }
        pure true

/-- The loop of `CPU::tickClockedDevices`; a device that throws ends it. -/
def tickDevices : List (ClockedDevice W) → Op W Unit
  | [] => pure ()
  | device :: rest => do
      Exec.zoom Core.worldRef device.tick
      tickDevices rest

/-- `CPU::tickClockedDevices`; `addClockedDevice` keeps null devices out of the list. -/
def tickClockedDevices (m : Setup W) : Op W Unit := tickDevices m.clockedDevices

end CPU

end ZeroCpu
