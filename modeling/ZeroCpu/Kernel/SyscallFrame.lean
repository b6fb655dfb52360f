import ZeroCpu.Core.Closed
import ZeroCpu.Kernel.Syscalls

/-!
# What a system call can change

Reference: `src/kernel/ProtectedSyscallDispatcher.cpp`, `src/kernel/ProtectedFilesystemService.cpp`.

Whatever service a process asks for, the dispatcher writes only to registers and to the User data
window. A service that goes back to its caller assigns to three registers at most: `ServiceClosed`
collects the properties that survive it, and the case analysis over the services is made here once
for all of them. `Served` is the frame that every service keeps, whether it returns or throws.
-/

namespace ZeroCpu.Kernel

open Library Exec MemoryMap Sys

variable {W : Type}

/-- `state'` differs from `state` at most in registers and in the User data window. -/
structure Served (state state' : CPUState) : Prop where
  size : state'.memory.size = state.memory.size
  byteAt : ∀ address, 512 ≤ address → state'.memory.byteAt address = state.memory.byteAt address
  flags : state'.flags = state.flags
  privilegeLevel : state'.privilegeLevel = state.privilegeLevel
  pc : state'.pc = state.pc
  sp : state'.sp = state.sp
  halted : state'.halted = state.halted
  hasError : state'.hasError = state.hasError
  errorMessage : state'.errorMessage = state.errorMessage

theorem Served.refl (state : CPUState) : Served state state :=
  ⟨rfl, fun _ _ => rfl, rfl, rfl, rfl, rfl, rfl, rfl, rfl⟩

/-- A write inside the User data window. -/
theorem Served.write {state state' : CPUState} (h : Served state state') {address : ℕ}
    {values : List UInt8} (hwindow : address + values.length ≤ 512)
    (hfit : address + values.length ≤ state'.memory.size) :
    Served state { state' with memory := state'.memory.splice address values } := by
  refine { h with size := ?_, byteAt := fun other hother => ?_ }
  · exact (Memory.size_splice hfit).trans h.size
  · exact (Memory.byteAt_splice_of_notMem hfit (.inr (by omega))).trans (h.byteAt other hother)

/-- The registers that a service which goes back to its caller may assign to. -/
def ABI.resultRegisters : List RegisterName :=
  [ABI.kArgument0ResultRegister, ABI.kArgument1Register, ABI.kStatusRegister]

/-- `P` survives what a service does to the state of its caller. -/
structure ServiceClosed (P : CPUState → Prop) : Prop where
  assign : ∀ {state : CPUState} {reg : RegisterName} (value : Word), reg ∈ ABI.resultRegisters →
    P state → P { state with registers := state.registers.set reg value }
  store : ∀ {state : CPUState} {address : ℕ} {values : List UInt8}, address + values.length ≤ 512 →
    address + values.length ≤ state.memory.size → P state →
    P { state with memory := state.memory.splice address values }

theorem Served.closed (state : CPUState) : ServiceClosed (Served state) where
  assign _ _ h := { h with }
  store hwindow hfit h := h.write hwindow hfit

/-! ## Requests -/

/-- A field of the request ends inside the window. -/
theorem requestField_eq_some {requestAddress : Word} {fieldOffset address : ℕ}
    (h : requestField requestAddress fieldOffset = some address) : address + 8 ≤ 512 := by
  rw [requestField] at h
  dsimp only at h
  split_ifs at h with _ _ hrange
  obtain rfl := Option.some.inj h
  have := (not_or.mp hrange).2
  rw [Bool.not_eq_false, isUserDataRange_iff] at this
  exact this

/-- A file is read to at most the requested length. -/
theorem readFile_length {fs : ZeroFS} {path : Str} {offset count : ℕ} {data : List UInt8}
    (hcount : count ≠ ZeroFS.kReadToEnd) (h : fs.readFile path offset count = .ok data) :
    data.length ≤ count := by
  simp only [ZeroFS.readFile, Library.bind_eq_ok] at h
  obtain ⟨normalized, -, node, -, h⟩ := h
  split_ifs at h
  · obtain rfl := Except.ok.inj h
    exact Nat.zero_le _
  · obtain rfl := Except.ok.inj h
    rw [List.length_take]
    omega

namespace ServiceClosed

variable {P : CPUState → Prop}

/-- Setting a result register is kept. -/
theorem keeps_putRegister {ε S : Type} (h : ServiceClosed P) {reg : RegisterName}
    (hreg : reg ∈ ABI.resultRegisters) (value : Word) :
    Keeps (fun p : CPUState × S => P p.1) (putRegister reg value : Exec ε _ Unit) :=
  Keeps.modify fun _ hp => h.assign value hreg hp

/-! ## Hardware -/

/-- What a device does is kept. -/
theorem keeps_device {α : Type} (x : Exec Str W α) :
    Keeps (fun p : CPUState × W => P p.1)
      (Exec.attempt (Exec.zoom hardwareWrite.worldRef x) : Exec Str _ _) :=
  Keeps.attempt fun _ h => h

/-- The hardware services are kept. -/
theorem keeps_hardwareService (h : ServiceClosed P) (serviceNumber : Word)
    (mmioBus : Option (MMIOBus W)) :
    Keeps (fun p : CPUState × W => P p.1) (hardwareService serviceNumber mmioBus) := by
  refine (Keeps.gets _).bind fun offsetValue => ?_
  dsimp only
  split
  · exact Keeps.pure _
  · split
    · exact Keeps.pure _
    · split
      · exact Keeps.pure _
      · split
        · refine (Keeps.gets _).bind fun value => (keeps_device _).bind fun outcome => ?_
          cases outcome with
          | ok u => exact Keeps.pure _
          | error e => exact Keeps.pure _
        · refine (keeps_device _).bind fun outcome => ?_
          cases outcome with
          | ok value => exact (h.keeps_putRegister (by decide) _).bind fun _ => Keeps.pure _
          | error e => exact Keeps.pure _

/-! ## Files -/

/-- Writing a field of the request is kept. -/
theorem keeps_writeRequestI64 (h : ServiceClosed P) (requestAddress : Word) (fieldOffset : ℕ)
    (value : Word) :
    Keeps (fun p : CPUState × ZeroFS => P p.1)
      (writeRequestI64 requestAddress fieldOffset value) := by
  rw [writeRequestI64]
  cases hfield : requestField requestAddress fieldOffset with
  | none => exact Keeps.pure _
  | some address =>
    rintro ⟨current, fs⟩ hp
    simp only [Exec.bind_apply, Exec.get_apply, guest, Exec.lift_apply, Memory.write, Memory.writeU64]
    cases hrange : current.memory.checkRange address 8 with
    | error e => exact hp
    | ok u =>
      refine h.store ?_ ?_ hp
      · rw [Endianness.length_bytes]
        exact requestField_eq_some hfield
      · rw [Endianness.length_bytes]
        exact Memory.checkRange_eq_ok.mp hrange

/-- `FS_STAT` is kept. -/
theorem keeps_filesystemStat (h : ServiceClosed P) (requestAddress : Word) (path : Str)
    (result : SoftwareInterruptResult) :
    Keeps (fun p : CPUState × ZeroFS => P p.1) (filesystemStat requestAddress path result) := by
  refine Keeps.get.bind fun s => (Keeps.lift _).bind fun stat => ?_
  split
  · exact Keeps.pure _
  · refine Keeps.bind ?_ fun written => ?_
    · refine (h.keeps_writeRequestI64 _ _ _).bind fun typeWritten => ?_
      split
      · exact Keeps.pure _
      · exact h.keeps_writeRequestI64 _ _ _
    · split
      · exact Keeps.pure _
      · exact (h.keeps_putRegister (by decide) _).bind fun _ =>
          (h.keeps_putRegister (by decide) _).bind fun _ => Keeps.pure _

/-- A file is read into a buffer that the transfer request has been checked for. -/
theorem keeps_filesystemRead (h : ServiceClosed P) {path : Str}
    {fileOffset bufferAddress transferCount : Word}
    (hbuffer : validGuestRange bufferAddress transferCount = true) (result : SoftwareInterruptResult) :
    Keeps (fun p : CPUState × ZeroFS => P p.1)
      (filesystemRead path fileOffset bufferAddress transferCount result) := by
  have hwindow : bufferAddress.toNat + transferCount.toNat ≤ 512 := by
    rw [validGuestRange] at hbuffer
    split_ifs at hbuffer
    exact (isUserDataRange_iff _ _).mp hbuffer
  rintro ⟨current, fs⟩ hp
  simp only [filesystemRead, Exec.bind_apply, Exec.get_apply, guest, zeroFs, Exec.lift_apply]
  cases hdata : fs.readFile path fileOffset.toNat transferCount.toNat with
  | error e => exact hp
  | ok data =>
    simp only [Except.mapError, Memory.writeBytes]
    cases hrange : current.memory.checkRange bufferAddress.toNat data.length with
    | error e => exact hp
    | ok u =>
      have hlength := readFile_length (by rw [ZeroFS.kReadToEnd, Binary.sizeMax]; omega) hdata
      exact h.assign _ (by decide) (h.store (by omega) (Memory.checkRange_eq_ok.mp hrange) hp)

/-- `FS_WRITE` is kept. -/
theorem keeps_filesystemWrite (h : ServiceClosed P) (path : Str)
    (fileOffset bufferAddress transferCount : Word) (result : SoftwareInterruptResult) :
    Keeps (fun p : CPUState × ZeroFS => P p.1)
      (filesystemWrite path fileOffset bufferAddress transferCount result) :=
  Keeps.get.bind fun _ => (Keeps.lift _).bind fun _ => (Keeps.lift _).bind fun _ =>
    Keeps.bind (Keeps.modify fun _ h => h) fun _ =>
      (h.keeps_putRegister (by decide) _).bind fun _ => Keeps.pure _

/-- A call of the file system is kept. -/
theorem keeps_filesystemCall (h : ServiceClosed P) (serviceNumber requestAddress : Word) (path : Str)
    (result : SoftwareInterruptResult) :
    Keeps (fun p : CPUState × ZeroFS => P p.1)
      (filesystemCall serviceNumber requestAddress path result) := by
  rw [filesystemCall]
  split
  · exact h.keeps_filesystemStat _ _ _
  · refine Keeps.get.bind fun s => (Keeps.lift _).bind fun transfer => ?_
    cases transfer with
    | none => exact Keeps.pure _
    | some fields =>
      obtain ⟨fileOffset, bufferAddress, transferCount⟩ := fields
      dsimp only
      split_ifs with hsigns hbuffer
      · exact Keeps.pure _
      · exact Keeps.pure _
      · exact h.keeps_filesystemRead (by simpa using hbuffer) _
      · exact h.keeps_filesystemWrite _ _ _ _ _

/-- The services of the file system are kept. -/
theorem keeps_filesystemService (h : ServiceClosed P) (serviceNumber : Word) :
    Keeps (fun p : CPUState × ZeroFS => P p.1) (filesystemService serviceNumber) := by
  refine (Keeps.gets _).bind fun requestAddress => Keeps.get.bind fun s =>
    (Keeps.lift _).bind fun path => ?_
  cases path with
  | error pathStatus => exact Keeps.pure _
  | ok path =>
    refine (h.keeps_filesystemCall _ _ _ _).attempt.bind fun outcome => ?_
    cases outcome with
    | ok result => exact Keeps.pure _
    | error fault => exact Keeps.pure _

/-! ## The dispatcher -/

theorem keeps_finishSyscall (h : ServiceClosed P) (result : SoftwareInterruptResult) :
    Keeps (fun p : CPUState × W => P p.1) (finishSyscall result) :=
  (h.keeps_putRegister (by decide) _).bind fun _ => Keeps.pure _

/-- A service other than the exit keeps `P`. -/
theorem keeps_findService (h : ServiceClosed P) {filesystem : Ref W ZeroFS}
    {mmioBus : Option (MMIOBus W)} {serviceNumber : Word}
    {service : Service W SoftwareInterruptResult}
    (hfind : findService filesystem mmioBus serviceNumber = some service)
    (hexit : serviceNumber ≠ ABI.kExitSyscall) :
    Keeps (fun p : CPUState × W => P p.1) service := by
  rw [findService, if_neg hexit] at hfind
  split_ifs at hfind
  · obtain rfl := Option.some.inj hfind
    exact h.keeps_hardwareService _ _
  · obtain rfl := Option.some.inj hfind
    exact fun p hp => h.keeps_filesystemService serviceNumber (p.1, filesystem.get p.2) hp

end ServiceClosed

/-! ## Process exit -/

theorem keeps_exitService {state : CPUState} :
    Keeps (fun p : CPUState × W => Served state p.1) exitService :=
  (Keeps.gets _).bind fun _ => (Keeps.modify fun _ h => { h with }).bind fun _ => Keeps.pure _

/-- Every system call keeps the frame. -/
theorem keeps_protectedSyscallDispatcher (filesystem : Ref W ZeroFS) (vector : UInt8)
    (mmioBus : Option (MMIOBus W)) (state : CPUState) :
    Keeps (fun p : CPUState × W => Served state p.1)
      ((protectedSyscallDispatcher filesystem).handle vector mmioBus) := by
  have hclosed := Served.closed state
  show Keeps _ (if vector != ABI.kSyscallVector then _ else _)
  split
  · exact hclosed.keeps_finishSyscall _
  · refine (Keeps.gets _).bind fun serviceNumber => ?_
    cases hfind : findService filesystem mmioBus serviceNumber with
    | none => exact hclosed.keeps_finishSyscall _
    | some service =>
      refine Keeps.bind ?_ fun _ => hclosed.keeps_finishSyscall _
      by_cases hexit : serviceNumber = ABI.kExitSyscall
      · rw [findService, if_pos hexit] at hfind
        obtain rfl := Option.some.inj hfind
        exact keeps_exitService
      · exact hclosed.keeps_findService hfind hexit

end ZeroCpu.Kernel
