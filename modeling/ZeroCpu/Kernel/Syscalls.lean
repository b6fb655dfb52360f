import ZeroCpu.Core.Devices
import ZeroCpu.System.ZeroFs

/-!
# Protected system calls

Reference: `include/zero_cpu/kernel/ProtectedSyscallABI.hpp`,
`src/kernel/ProtectedSyscallDispatcher.cpp`, `src/kernel/ProtectedFilesystemService.cpp`.

The dispatcher is modelled with the three services its constructor registers.
-/

namespace ZeroCpu.Kernel

open Library MemoryMap Sys

variable {W : Type}

/-! ## The ABI -/

namespace ABI

/-- The vector and the registers of a system call. -/
def kSyscallVector : UInt8 := 80
def kServiceRegister : RegisterName := .R1
def kArgument0ResultRegister : RegisterName := .R2
def kArgument1Register : RegisterName := .R3
def kStatusRegister : RegisterName := .R4
def kExitValueRegister : RegisterName := .R7

/-- The services. -/
def kExitSyscall : Word := 3
def kHardwareWriteSyscall : Word := 20
def kHardwareReadSyscall : Word := 21
def kFilesystemStatSyscall : Word := 30
def kFilesystemReadSyscall : Word := 31
def kFilesystemWriteSyscall : Word := 32

/-- The fields of a request block; the outputs of `FS_STAT` take the place of its transfer
fields. -/
def kFilesystemPathPointerOffset : ℕ := 0
def kFilesystemPathLengthOffset : ℕ := 8
def kFilesystemFileOffsetOffset : ℕ := 16
def kFilesystemBufferPointerOffset : ℕ := 24
def kFilesystemTransferCountOffset : ℕ := 32
def kFilesystemStatTypeOffset : ℕ := 16
def kFilesystemStatSizeOffset : ℕ := 24

/-- The node types, and the longest path. -/
def kFilesystemNodeFile : Word := 0
def kFilesystemNodeDirectory : Word := 1
def kFilesystemMaxPathLength : ℤ := 255

/-- The statuses. -/
def kStatusOk : Word := 0
def kStatusUnsupported : Word := -1
def kStatusInvalidHardwareOffset : Word := -2
def kStatusHardwareUnavailable : Word := -3
def kStatusHardwareError : Word := -4
def kStatusInvalidGuestMemory : Word := -5
def kStatusFilesystemInvalidPath : Word := -6
def kStatusFilesystemNotFound : Word := -7
def kStatusFilesystemTypeError : Word := -8
def kStatusFilesystemInvalidOffset : Word := -9
def kStatusFilesystemError : Word := -10

end ABI

/-- A service over the CPU state and the objects `S` it owns or is given. -/
abbrev Service (S α : Type) : Type := Exec Str (CPUState × S) α

/-- `state.registers().get`. -/
def getRegister {S : Type} (reg : RegisterName) : Service S Word :=
  Exec.gets fun s => s.1.registers reg

/-- `state.registers().set`. -/
def putRegister {ε S : Type} (reg : RegisterName) (value : Word) :
    Exec ε (CPUState × S) Unit :=
  Exec.modify fun s => ({ s.1 with registers := s.1.registers.set reg value }, s.2)

/-! ## Process exit -/

/-- `ProcessExitRuntimeService::handle`. -/
def exitService : Service W SoftwareInterruptResult := do
  let exitCode ← getRegister ABI.kArgument0ResultRegister
  putRegister ABI.kExitValueRegister exitCode
  pure {
    disposition := .TerminateProcess
    exit_code := exitCode
    argument0 := some exitCode
    status := some ABI.kStatusOk }

/-! ## Hardware registers -/

/-- The offset is a multiple of 8 inside the hardware window. -/
def validHardwareOffset (offset : Word) : Bool :=
  if offset.toInt < 0 then false
  else decide (offset.toNat < kHardwareSize) && offset.toNat % kHardwareRegisterWidth == 0

/-- `mmioBus->write`, with a thrown error as a status. -/
def hardwareWrite (bus : MMIOBus W) (address : ℕ) (result : SoftwareInterruptResult) :
    Service W SoftwareInterruptResult := do
  let value ← getRegister ABI.kArgument1Register
  let outcome ← Exec.attempt (Exec.zoom worldRef (bus.write address value))
  match outcome with
  | .ok _ => pure { result with argument1 := some value, status := some ABI.kStatusOk }
  | .error _ => pure { result with
      argument1 := some value, status := some ABI.kStatusHardwareError }
where
  /-- The devices' world behind the CPU state. -/
  worldRef : Ref (CPUState × W) W :=
    { get := Prod.snd
      set := fun world s => (s.1, world)
      get_set := fun _ _ => rfl
      set_get := fun _ => rfl
      set_set := fun _ _ _ => rfl }

/-- `mmioBus->read`, with a thrown error as a status. -/
def hardwareRead (bus : MMIOBus W) (address : ℕ) (result : SoftwareInterruptResult) :
    Service W SoftwareInterruptResult := do
  let outcome ← Exec.attempt (Exec.zoom hardwareWrite.worldRef (bus.read address))
  match outcome with
  | .ok value => do
      putRegister ABI.kArgument0ResultRegister value
      pure { result with result := some value, status := some ABI.kStatusOk }
  | .error _ => pure { result with status := some ABI.kStatusHardwareError }

/-- `HardwareRuntimeService::handle`. -/
def hardwareService (serviceNumber : Word) (mmioBus : Option (MMIOBus W)) :
    Service W SoftwareInterruptResult := do
  let offsetValue ← getRegister ABI.kArgument0ResultRegister
  let result : SoftwareInterruptResult := { argument0 := some offsetValue }
  if !validHardwareOffset offsetValue then
    pure { result with status := some ABI.kStatusInvalidHardwareOffset }
  else match mmioBus with
    | none => pure { result with status := some ABI.kStatusHardwareUnavailable }
    | some bus =>
        let address := kHardwareBase + offsetValue.toNat
        if !bus.hasDeviceAt address then
          pure { result with status := some ABI.kStatusHardwareUnavailable }
        else if serviceNumber = ABI.kHardwareWriteSyscall then hardwareWrite bus address result
        else hardwareRead bus address result

/-! ## Guest memory -/

/-- The guest address of a request field, when the field lies in the User data window. -/
def requestField (requestAddress : Word) (fieldOffset : ℕ) : Option ℕ :=
  if requestAddress.toInt < 0 then none
  else
    let base := requestAddress.toNat
    if base > kUserDataEndExclusive ∨ fieldOffset > kUserDataEndExclusive - base then none
    else
      let address := base + fieldOffset
      if address % 8 ≠ 0 ∨ isUserDataRange address 8 = false then none else some address

/-- The range lies in the User data window. -/
def validGuestRange (address count : Word) : Bool :=
  if address.toInt < 0 ∨ count.toInt < 0 then false
  else isUserDataRange address.toNat count.toNat

/-- The value of a request field. -/
def readRequestI64 (memory : Memory) (requestAddress : Word) (fieldOffset : ℕ) :
    Except Str (Option Word) :=
  match requestField requestAddress fieldOffset with
  | none => .ok none
  | some address => do
      let value ← memory.read address
      pure (some value)

/-- The path of a request, or the status that refuses it. -/
def readPath (memory : Memory) (requestAddress : Word) : Except Str (Except Word Str) := do
  let pathAddress ← readRequestI64 memory requestAddress ABI.kFilesystemPathPointerOffset
  match pathAddress with
  | none => pure (.error ABI.kStatusInvalidGuestMemory)
  | some pathAddress => do
      let pathLength ← readRequestI64 memory requestAddress ABI.kFilesystemPathLengthOffset
      match pathLength with
      | none => pure (.error ABI.kStatusInvalidGuestMemory)
      | some pathLength =>
          if pathLength.toInt ≤ 0 ∨ pathLength.toInt > ABI.kFilesystemMaxPathLength then
            pure (.error ABI.kStatusFilesystemInvalidPath)
          else if !validGuestRange pathAddress pathLength then
            pure (.error ABI.kStatusInvalidGuestMemory)
          else do
            let bytes ← memory.readBytes pathAddress.toNat pathLength.toNat
            pure (.ok bytes)

/-! ## File system calls -/

/-- What the `try` block of the file system service may throw: an error of ZeroFS or another
`std::exception`. -/
abbrev FilesystemFault : Type := Option ZeroFSError

/-- The `try` block's computations: CPU state and file system, with either kind of exception. -/
abbrev Filesystem (α : Type) : Type := Exec FilesystemFault (CPUState × ZeroFS) α

/-- The status of a file-system error. -/
def mapFilesystemError : ZeroFSError → Word
  | .InvalidPath => ABI.kStatusFilesystemInvalidPath
  | .NotFound => ABI.kStatusFilesystemNotFound
  | .NotDirectory | .IsDirectory => ABI.kStatusFilesystemTypeError
  | .InvalidOffset => ABI.kStatusFilesystemInvalidOffset
  | .AlreadyExists => ABI.kStatusFilesystemError

/-- The status of a caught exception. -/
def faultStatus : FilesystemFault → Word
  | some error => mapFilesystemError error
  | none => ABI.kStatusFilesystemError

/-- A ZeroFS operation inside the `try` block. -/
def zeroFs {α : Type} (r : Except ZeroFSException α) : Filesystem α :=
  Exec.lift (r.mapError fun exception => some exception.error)

/-- Another operation inside the `try` block. -/
def guest {α : Type} (r : Except Str α) : Filesystem α := Exec.lift (r.mapError fun _ => none)

/-- `writeRequestI64`. -/
def writeRequestI64 (requestAddress : Word) (fieldOffset : ℕ) (value : Word) : Filesystem Bool :=
  match requestField requestAddress fieldOffset with
  | none => pure false
  | some address => do
      let (state, _) ← Exec.get
      let memory ← guest (state.memory.write address value)
      Exec.modify fun s => ({ s.1 with memory := memory }, s.2)
      pure true

/-- Write the two output fields of a `FS_STAT`, the second one only after the first. -/
def writeStat (requestAddress type size : Word) : Filesystem Bool := do
  let typeWritten ← writeRequestI64 requestAddress ABI.kFilesystemStatTypeOffset type
  if !typeWritten then pure false
  else writeRequestI64 requestAddress ABI.kFilesystemStatSizeOffset size

/-- `FS_STAT`: the node's type, then its size, into the request block. -/
def filesystemStat (requestAddress : Word) (path : Str) (result : SoftwareInterruptResult) :
    Filesystem SoftwareInterruptResult := do
  let (_, fs) ← Exec.get
  let stat ← zeroFs (fs.stat path)
  if stat.size > 2 ^ 63 - 1 then pure { result with status := some ABI.kStatusFilesystemError }
  else do
    let type :=
      if stat.type = .File then ABI.kFilesystemNodeFile else ABI.kFilesystemNodeDirectory
    let size := Word.ofSize stat.size
    let written ← writeStat requestAddress type size
    if !written then pure { result with status := some ABI.kStatusInvalidGuestMemory }
    else do
      putRegister ABI.kArgument0ResultRegister size
      putRegister ABI.kArgument1Register type
      pure { result with result := some size }

/-- The three fields of a transfer request. -/
def readTransfer (memory : Memory) (requestAddress : Word) :
    Except Str (Option (Word × Word × Word)) := do
  let fileOffset ← readRequestI64 memory requestAddress ABI.kFilesystemFileOffsetOffset
  match fileOffset with
  | none => pure none
  | some fileOffset => do
      let bufferAddress ← readRequestI64 memory requestAddress ABI.kFilesystemBufferPointerOffset
      match bufferAddress with
      | none => pure none
      | some bufferAddress => do
          let transferCount ←
            readRequestI64 memory requestAddress ABI.kFilesystemTransferCountOffset
          pure (transferCount.map fun transferCount => (fileOffset, bufferAddress, transferCount))

/-- `FS_READ`: the bytes read, into the buffer. -/
def filesystemRead (path : Str) (fileOffset bufferAddress transferCount : Word)
    (result : SoftwareInterruptResult) : Filesystem SoftwareInterruptResult := do
  let (state, fs) ← Exec.get
  let data ← zeroFs (fs.readFile path fileOffset.toNat transferCount.toNat)
  let memory ← guest (state.memory.writeBytes bufferAddress.toNat data)
  Exec.modify fun s => ({ s.1 with memory := memory }, s.2)
  let transferred := Word.ofSize data.length
  putRegister ABI.kArgument0ResultRegister transferred
  pure { result with result := some transferred }

/-- `FS_WRITE`: the buffer, into the file. -/
def filesystemWrite (path : Str) (fileOffset bufferAddress transferCount : Word)
    (result : SoftwareInterruptResult) : Filesystem SoftwareInterruptResult := do
  let (state, fs) ← Exec.get
  let data ← guest (state.memory.readBytes bufferAddress.toNat transferCount.toNat)
  let fs ← zeroFs (fs.writeFile path fileOffset.toNat data)
  Exec.modify fun s => (s.1, fs)
  putRegister ABI.kArgument0ResultRegister transferCount
  pure { result with result := some transferCount }

/-- `FS_READ` and `FS_WRITE`. -/
def filesystemTransfer (serviceNumber requestAddress : Word) (path : Str)
    (result : SoftwareInterruptResult) : Filesystem SoftwareInterruptResult := do
  let (state, _) ← Exec.get
  let transfer ← guest (readTransfer state.memory requestAddress)
  match transfer with
  | none => pure { result with status := some ABI.kStatusInvalidGuestMemory }
  | some (fileOffset, bufferAddress, transferCount) =>
      if fileOffset.toInt < 0 ∨ transferCount.toInt < 0 then
        pure { result with status := some ABI.kStatusFilesystemInvalidOffset }
      else if !validGuestRange bufferAddress transferCount then
        pure { result with status := some ABI.kStatusInvalidGuestMemory }
      else if serviceNumber = ABI.kFilesystemReadSyscall then
        filesystemRead path fileOffset bufferAddress transferCount result
      else filesystemWrite path fileOffset bufferAddress transferCount result

/-- The `try` block of `ProtectedFilesystemService::handle`. -/
def filesystemCall (serviceNumber requestAddress : Word) (path : Str)
    (result : SoftwareInterruptResult) : Filesystem SoftwareInterruptResult :=
  if serviceNumber = ABI.kFilesystemStatSyscall then filesystemStat requestAddress path result
  else filesystemTransfer serviceNumber requestAddress path result

/-- `ProtectedFilesystemService::handle`. -/
def filesystemService (serviceNumber : Word) : Service ZeroFS SoftwareInterruptResult := do
  let requestAddress ← getRegister ABI.kArgument0ResultRegister
  let result : SoftwareInterruptResult :=
    { argument0 := some requestAddress, status := some ABI.kStatusOk }
  let (state, _) ← Exec.get
  let path ← Exec.lift (readPath state.memory requestAddress)
  match path with
  | .error pathStatus => pure { result with status := some pathStatus }
  | .ok path => do
      let outcome ← Exec.attempt (filesystemCall serviceNumber requestAddress path result)
      match outcome with
      | .ok result => pure result
      | .error fault => pure { result with status := some (faultStatus fault) }

/-! ## The dispatcher -/

/-- A service that only sees the file system behind a pointer. -/
def onFilesystem (r : Ref W ZeroFS) : Ref (CPUState × W) (CPUState × ZeroFS) where
  get s := (s.1, r.get s.2)
  set t s := (t.1, r.set t.2 s.2)
  get_set t s := by simp
  set_get s := by simp
  set_set t t' s := by simp

/-- The service that takes `serviceNumber`, in registration order. -/
def findService (filesystem : Ref W ZeroFS) (mmioBus : Option (MMIOBus W)) (serviceNumber : Word) :
    Option (Service W SoftwareInterruptResult) :=
  if serviceNumber = ABI.kExitSyscall then some exitService
  else if serviceNumber = ABI.kHardwareWriteSyscall ∨ serviceNumber = ABI.kHardwareReadSyscall then
    some (hardwareService serviceNumber mmioBus)
  else if serviceNumber = ABI.kFilesystemStatSyscall
      ∨ serviceNumber = ABI.kFilesystemReadSyscall
      ∨ serviceNumber = ABI.kFilesystemWriteSyscall then
    some (Exec.zoom (onFilesystem filesystem) (filesystemService serviceNumber))
  else none

/-- The lambda `finish`: a missing status is OK, and the status goes to its register. -/
def finishSyscall (result : SoftwareInterruptResult) : Service W SoftwareInterruptResult := do
  let status := result.status.getD ABI.kStatusOk
  putRegister ABI.kStatusRegister status
  pure { result with status := some status }

/-- `ProtectedSyscallDispatcher`, over the file system behind `filesystem`. -/
def protectedSyscallDispatcher (filesystem : Ref W ZeroFS) : SoftwareInterruptHandler W where
  handles vector := vector == ABI.kSyscallVector
  handle vector mmioBus :=
    if vector != ABI.kSyscallVector then
      finishSyscall { status := some ABI.kStatusUnsupported }
    else do
      let serviceNumber ← getRegister ABI.kServiceRegister
      match findService filesystem mmioBus serviceNumber with
      | none =>
          finishSyscall { status := some ABI.kStatusUnsupported, service_number := some serviceNumber }
      | some service => do
          let result ← service
          finishSyscall { result with service_number := some serviceNumber }

end ZeroCpu.Kernel
