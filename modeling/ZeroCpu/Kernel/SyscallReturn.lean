import ZeroCpu.Core.Interrupts
import ZeroCpu.Core.UserMode
import ZeroCpu.Kernel.SyscallFrame

/-!
# Returning from a system call

Reference: `src/core/CPU.cpp`, `serviceHostSoftwareInterrupt`, `pushInterruptFrame` and
`restoreInterruptFrame`; `src/kernel/ProtectedSyscallDispatcher.cpp`.

The dispatcher runs on the live CPU, between a frame that is pushed and one that is popped from the
same memory. A service reaches only the User data window and three registers, so the frame that the
return reads is the frame of the entry: a call that goes back to its caller is the assignment
`Core.returned` of what the frame has saved.
-/

namespace ZeroCpu

open Library Exec Reference

variable {W : Type}

/-- A frame is written to its four slots only. -/
theorem Reference.Frame.byteAt_write (frame : Frame) {memory : Memory} {base address : ℕ}
    (hfit : base + 32 ≤ memory.size) (hout : address < base ∨ base + 32 ≤ address) :
    (frame.write memory base).byteAt address = memory.byteAt address := by
  obtain ⟨h1, h2, h3, -⟩ := frame.size_slots hfit
  have hlen : ∀ w : Word, (leBytes 8 w).length = 8 := length_leBytes 8
  rw [Frame.write, Memory.byteAt_splice_of_notMem, Memory.byteAt_splice_of_notMem,
    Memory.byteAt_splice_of_notMem, Memory.byteAt_splice_of_notMem]
  all_goals simp only [hlen, h1, h2, h3]
  all_goals omega

/-! ## Into the handler and back -/

/-- The core on the Kernel stack, with the frame of an interrupted User pushed. -/
def Core.trapped (s : Core W) (returnPc : ℕ) : Core W :=
  { s with
    state := { s.state with
      memory := (s.savedFrame returnPc).write s.state.memory 4000
      privilegeLevel := .kernel
      sp := 4032 }
    kernelStackPointer := 4032
    usingKernelInterruptStack := true }

/-- The core in which the dispatcher starts: the vector is in R0. -/
def Core.calling (s : Core W) (returnPc : ℕ) : Core W :=
  (s.trapped returnPc).updateState fun state =>
    { state with registers := state.registers.set .R0 80 }

/-- The core once the frame that `s` has pushed is popped again. -/
def Core.returned (s : Core W) (returnPc : ℕ) (core : Core W) : Core W :=
  { core with
    state := { core.state with
      flags := restoreFlags core.state.flags (packFlags s.state.flags)
      privilegeLevel := .user
      pc := returnPc
      sp := s.state.sp }
    kernelStackPointer := 4000
    usingKernelInterruptStack := false }

/-- The frame that `s` has pushed is on top of the Kernel stack. -/
structure InTrap (s : Core W) (returnPc : ℕ) (core : Core W) : Prop where
  privilege : core.state.privilegeLevel = .kernel
  sp : core.state.sp = 4032
  onKernelStack : core.usingKernelInterruptStack = true
  size : core.state.memory.size = 4096
  frame : Frame.read core.state.memory 4000 = s.savedFrame returnPc

/-- A call that has just trapped is in its trap. -/
theorem InTrap.of_trapped {k : Confinement W} {s : Core W} (h : UserContext k s) (returnPc : ℕ) :
    InTrap s returnPc (s.trapped returnPc) where
  privilege := rfl
  sp := rfl
  onKernelStack := rfl
  size := ((s.savedFrame returnPc).size_slots (by rw [h.memory_size]; decide)).2.2.2.trans
    h.memory_size
  frame := (s.savedFrame returnPc).read_write (by rw [h.memory_size]; decide)

namespace CPU

variable {k : Confinement W} {m : Setup W} {s core : Core W} {returnPc : ℕ}

/-- A User stack pointer passes its check. -/
theorem userStackPointer_ok (h : UserContext k s) :
    requireStackPointerInRange s.state.sp MemoryMap.kUserStackBase MemoryMap.kUserStackEndExclusive
      = .ok () := by
  have hge := h.sp_ge
  have hal := h.sp_aligned
  refine requireStackPointerInRange_eq_ok.mpr ⟨hge, ?_, h.sp_le⟩
  show (s.state.sp - 2048) % 8 = 0
  omega

/-- A User on its stack can always be interrupted. -/
theorem pushInterruptFrame_user (h : UserContext k s) (returnPc : ℕ) :
    pushInterruptFrame returnPc s = (.ok (), s.trapped returnPc) := by
  have hsp := userStackPointer_ok h
  have hksp : requireStackPushSlotsAt 4000 MemoryMap.kKernelStackBase
      MemoryMap.kKernelStackEndExclusive kInterruptFrameSlotCount = .ok () := by decide
  have hbase : interruptFrameBase s = (.ok 4000, s) := by
    simp only [interruptFrameBase, bind_apply, get_apply, h.privilege, if_true, lift_apply, hsp,
      hksp, h.kernel_sp, pure_apply]
  -- The four slots are inside memory, one after the other.
  obtain ⟨h0, hs0⟩ := writeMemory_of_fits h.memory_size (by decide : 4000 + 8 ≤ 4096)
    (Word.ofSize returnPc)
  obtain ⟨h1, hs1⟩ := writeMemory_of_fits hs0 (by decide : 4008 + 8 ≤ 4096) (packFlags s.state.flags)
  obtain ⟨h2, hs2⟩ := writeMemory_of_fits hs1 (by decide : 4016 + 8 ≤ 4096)
    (privilegeLevelToRaw s.state.privilegeLevel)
  obtain ⟨h3, -⟩ := writeMemory_of_fits hs2 (by decide : 4024 + 8 ≤ 4096) (Word.ofSize s.state.sp)
  rw [pushInterruptFrame, bind_apply, get_apply]
  simp only [kInterruptFrameSize, kInterruptFrameSlotCount, kStackSlotSize]
  rw [bind_of_ok hbase, bind_of_ok h0, bind_of_ok h1, bind_of_ok h2, bind_of_ok h3, bind_apply,
    modify_apply]
  simp only [if_pos h.privilege]
  rfl

/-- The address an interrupt return goes back to. -/
def returnAllowed (m : Setup W) (allowUserCodeEnd : Bool) (returnPc : ℕ) : Except Str Unit :=
  if allowUserCodeEnd && m.hasUserCodeRange && returnPc == m.userCodeEndExclusive then .ok ()
  else requireExecutionAddress m returnPc .user

/-- Popping the frame of an interrupted User is one check and one assignment. -/
theorem restoreInterruptFrame_user (h : UserContext k s) (ht : InTrap s returnPc core)
    (hpc : returnPc < 2 ^ 63) (error : Str) (allowUserCodeEnd : Bool) :
    restoreInterruptFrame m error allowUserCodeEnd core
      = match returnAllowed m allowUserCodeEnd returnPc with
        | .ok _ => (.ok (), s.returned returnPc core)
        | .error e => (.error e, core) := by
  have hpop : requireStackPopSlotsAt 4032 (activeStackBase core) (activeStackEndExclusive core) 4
      = .ok () := by
    have hbase : activeStackBase core = 4000 := by
      rw [activeStackBase, CPUState.isUserMode, ht.privilege, ht.onKernelStack]
      rfl
    have hend : activeStackEndExclusive core = 4096 := by
      rw [activeStackEndExclusive, CPUState.isUserMode, ht.privilege, ht.onKernelStack]
      rfl
    rw [hbase, hend]
    decide
  -- The frame is in memory as it was pushed, so its four words are known.
  have hread : ∀ k, k + 8 ≤ 32 → core.state.memory.read (4000 + k)
      = .ok (leWord 64 (core.state.memory.slice (4000 + k) 8)) := fun k hk =>
    Memory.read_eq_ok.mpr ⟨by have := ht.size; omega, rfl⟩
  have h0 := hread 0 (by decide)
  have h8 := hread 8 (by decide)
  have h16 := hread 16 (by decide)
  have h24 := hread 24 (by decide)
  have hframe := ht.frame
  rw [Core.savedFrame, Frame.read, Frame.mk.injEq, h.privilege] at hframe
  obtain ⟨f0, f8, f16, f24⟩ := hframe
  rw [Nat.add_zero, f0] at h0
  rw [f8] at h8
  rw [f16] at h16
  rw [f24] at h24
  have hprivilege := privilegeLevelFromRaw_toRaw .user
  have hreturn : ∀ error, checkedReturnAddress (Word.ofSize returnPc) error = .ok returnPc :=
    fun error => (checkedSize_ofSize (by omega)).mpr ⟨hpc, rfl⟩
  have hsaved : checkedSize (Word.ofSize s.state.sp) "Negative saved stack pointer"
      = .ok s.state.sp := by
    have := h.sp_le
    exact (checkedSize_ofSize (by omega)).mpr ⟨by omega, rfl⟩
  have hrestored : requireRestoredStackPointer s.state.sp .user core = (.ok (), core) := by
    rw [requireRestoredStackPointer, bind_apply, get_apply]
    simp only [if_true]
    rw [lift_apply, userStackPointer_ok h]
  -- Only the address check is left, which depends on whether the end of the code counts.
  have huser : (allowUserCodeEnd && PrivilegeLevel.user == .user && m.hasUserCodeRange
      && returnPc == m.userCodeEndExclusive)
      = (allowUserCodeEnd && m.hasUserCodeRange && returnPc == m.userCodeEndExclusive) := by
    rw [beq_self_eq_true, Bool.and_true]
  simp only [restoreInterruptFrame, requireStackPopSlots, bind_apply, get_apply, lift_apply,
    readMemory_apply, kInterruptFrameSize, kInterruptFrameSlotCount, kStackSlotSize, ht.sp,
    Nat.reduceMul, Nat.reduceSub, hpop, h0, h8, h16, h24, hprivilege, hreturn, hsaved, huser,
    returnAllowed]
  cases allowUserCodeEnd && m.hasUserCodeRange && returnPc == m.userCodeEndExclusive with
  | true =>
    simp only [Bool.not_true, Bool.false_eq_true, if_false, if_true, bind_apply, hrestored,
      modifyFlags, modifyState, modify_apply, Core.updateState, ht.onKernelStack]
    rfl
  | false =>
    simp only [Bool.not_false, Bool.false_eq_true, if_false, if_true, bind_apply, lift_apply]
    cases requireExecutionAddress m returnPc .user with
    | error e => rfl
    | ok u =>
      simp only [hrestored, modifyFlags, modifyState, modify_apply, Core.updateState,
        ht.onKernelStack, if_true]
      rfl

end CPU

/-! ## What the dispatcher does in between -/

namespace Kernel

open MemoryMap Sys

variable {filesystem : Ref W ZeroFS} {mmioBus : Option (MMIOBus W)}

/-- Reading a field of the request does not throw. -/
theorem exists_readRequestI64 {memory : Memory} (hsize : 512 ≤ memory.size) (requestAddress : Word)
    (fieldOffset : ℕ) : ∃ value, readRequestI64 memory requestAddress fieldOffset = .ok value := by
  rw [readRequestI64]
  cases hfield : requestField requestAddress fieldOffset with
  | none => exact ⟨none, rfl⟩
  | some address =>
    have hread : memory.read address = .ok (leWord 64 (memory.slice address 8)) :=
      Memory.read_eq_ok.mpr ⟨(requestField_eq_some hfield).trans hsize, rfl⟩
    refine ⟨some (leWord 64 (memory.slice address 8)), ?_⟩
    simp only [hread, ok_bind]
    rfl

/-- Reading a path never throws: every access is checked against the User data window first. -/
theorem exists_readPath {memory : Memory} (hsize : 512 ≤ memory.size) (requestAddress : Word) :
    ∃ path, readPath memory requestAddress = .ok path := by
  obtain ⟨pathAddress, haddress⟩ :=
    exists_readRequestI64 hsize requestAddress ABI.kFilesystemPathPointerOffset
  obtain ⟨pathLength, hlength⟩ :=
    exists_readRequestI64 hsize requestAddress ABI.kFilesystemPathLengthOffset
  simp only [readPath, haddress, hlength, ok_bind]
  cases pathAddress with
  | none => exact ⟨_, rfl⟩
  | some pathAddress =>
    cases pathLength with
    | none => exact ⟨_, rfl⟩
    | some pathLength =>
      simp only
      split_ifs with hsign hrange
      · exact ⟨_, rfl⟩
      · exact ⟨_, rfl⟩
      · have hwindow : pathAddress.toNat + pathLength.toNat ≤ 512 := by
          rw [Bool.not_eq_true, Bool.not_eq_false', validGuestRange] at hrange
          split_ifs at hrange
          exact (isUserDataRange_iff _ _).mp hrange
        have hread : memory.readBytes pathAddress.toNat pathLength.toNat
            = .ok (memory.slice pathAddress.toNat pathLength.toNat) :=
          Memory.readBytes_eq_ok.mpr ⟨hwindow.trans hsize, rfl⟩
        rw [hread]
        exact ⟨_, rfl⟩

/-- The services of the file system do not throw. -/
theorem exists_filesystemService (serviceNumber : Word) {s : CPUState × ZeroFS}
    (hsize : 512 ≤ s.1.memory.size) :
    ∃ result s', filesystemService serviceNumber s = (.ok result, s') := by
  obtain ⟨path, hpath⟩ := exists_readPath hsize (s.1.registers ABI.kArgument0ResultRegister)
  simp only [filesystemService, getRegister, Exec.bind_apply, gets_apply, get_apply, lift_apply,
    hpath]
  cases path with
  | error pathStatus => exact ⟨_, _, rfl⟩
  | ok path =>
    simp only [Exec.bind_apply, Exec.attempt]
    generalize filesystemCall serviceNumber _ path _ s = outcome
    rcases outcome with ⟨fault | result, s'⟩
    · exact ⟨_, _, rfl⟩
    · exact ⟨_, _, rfl⟩

/-- The hardware services do not throw. -/
theorem exists_hardwareService (serviceNumber : Word) (mmioBus : Option (MMIOBus W))
    (s : CPUState × W) : ∃ result s', hardwareService serviceNumber mmioBus s = (.ok result, s') := by
  simp only [hardwareService, getRegister, Exec.bind_apply, gets_apply]
  by_cases hoffset : (!validHardwareOffset (s.1.registers ABI.kArgument0ResultRegister)) = true
  · rw [if_pos hoffset]
    exact ⟨_, _, rfl⟩
  · rw [if_neg hoffset]
    cases mmioBus with
    | none => exact ⟨_, _, rfl⟩
    | some bus =>
      simp only
      split_ifs
      · exact ⟨_, _, rfl⟩
      · simp only [hardwareWrite, getRegister, Exec.bind_apply, gets_apply, Exec.attempt]
        generalize Exec.zoom hardwareWrite.worldRef _ s = outcome
        rcases outcome with ⟨e | u, s'⟩
        · exact ⟨_, _, rfl⟩
        · exact ⟨_, _, rfl⟩
      · simp only [hardwareRead, Exec.bind_apply, Exec.attempt]
        generalize Exec.zoom hardwareWrite.worldRef _ s = outcome
        rcases outcome with ⟨e | value, s'⟩
        · exact ⟨_, _, rfl⟩
        · exact ⟨_, _, rfl⟩

/-- Every service returns. -/
theorem exists_findService {serviceNumber : Word} {service : Service W SoftwareInterruptResult}
    (hfind : findService filesystem mmioBus serviceNumber = some service) {s : CPUState × W}
    (hsize : 512 ≤ s.1.memory.size) : ∃ result s', service s = (.ok result, s') := by
  rw [findService] at hfind
  split_ifs at hfind
  · obtain rfl := Option.some.inj hfind
    exact ⟨_, _, rfl⟩
  · obtain rfl := Option.some.inj hfind
    exact exists_hardwareService _ _ _
  · obtain rfl := Option.some.inj hfind
    obtain ⟨result, s', hrun⟩ := exists_filesystemService serviceNumber
      (s := (onFilesystem filesystem).get s) hsize
    exact ⟨result, (onFilesystem filesystem).set s' s, by rw [Exec.zoom_apply, hrun]⟩

/-- The registers that no service which goes back to its caller assigns to. -/
def SameReserved (state state' : CPUState) : Prop :=
  ∀ reg, reg ∉ ABI.resultRegisters → state'.registers reg = state.registers reg

/-- No service touches the reserved bits. -/
theorem SameReserved.closed (state : CPUState) : ServiceClosed (SameReserved state) where
  assign value hassigned h reg hreg := by
    refine (RegisterFile.set_of_ne _ value ?_).trans (h reg hreg)
    rintro rfl
    exact hreg hassigned
  store _ _ h := h

/-- The exit service ends the process. -/
theorem exitService_terminates {s s' : CPUState × W} {result : SoftwareInterruptResult}
    (h : exitService s = (.ok result, s')) : result.disposition = .TerminateProcess := by
  obtain rfl := Except.ok.inj (Prod.ext_iff.mp h).1
  rfl

/-- The status of a call is in the status register, whatever the service has returned. -/
theorem finishSyscall_returns (result : SoftwareInterruptResult) (s : CPUState × W) :
    ∃ result' s', finishSyscall result s = (.ok result', s')
      ∧ result'.disposition = result.disposition
      ∧ result'.status = some (s'.1.registers ABI.kStatusRegister) ∧ SameReserved s.1 s'.1 := by
  refine ⟨_, _, rfl, rfl, ?_, ?_⟩
  · exact congrArg some (RegisterFile.set_self s.1.registers ABI.kStatusRegister
      (result.status.getD ABI.kStatusOk)).symm
  · exact (SameReserved.closed s.1).keeps_finishSyscall result s fun _ _ => rfl

/-- A system call always returns, and one that does not end the process has left its frame and the
reserved registers alone and reports its status in the status register. -/
theorem protectedSyscallDispatcher_returns (filesystem : Ref W ZeroFS)
    (mmioBus : Option (MMIOBus W)) {s : CPUState × W} (hsize : 512 ≤ s.1.memory.size) :
    ∃ result s', (protectedSyscallDispatcher filesystem).handle ABI.kSyscallVector mmioBus s
        = (.ok result, s')
      ∧ Served s.1 s'.1
      ∧ (result.disposition ≠ .TerminateProcess → SameReserved s.1 s'.1
        ∧ result.status = some (s'.1.registers ABI.kStatusRegister)) := by
  have hserved := keeps_protectedSyscallDispatcher filesystem ABI.kSyscallVector mmioBus s.1 s
    (.refl s.1)
  have hclosed := SameReserved.closed s.1
  have hrun : ∃ result s', (protectedSyscallDispatcher filesystem).handle ABI.kSyscallVector mmioBus s
        = (.ok result, s')
      ∧ (result.disposition ≠ .TerminateProcess → SameReserved s.1 s'.1
        ∧ result.status = some (s'.1.registers ABI.kStatusRegister)) := by
    show ∃ result s', (getRegister ABI.kServiceRegister >>= fun serviceNumber => _) s = _ ∧ _
    simp only [getRegister, Exec.bind_apply, gets_apply]
    cases hfind : findService filesystem mmioBus (s.1.registers ABI.kServiceRegister) with
    | none =>
      obtain ⟨result, s', hfinished, -, hstatus, hreserved⟩ := finishSyscall_returns _ s
      exact ⟨result, s', hfinished, fun _ => ⟨hreserved, hstatus⟩⟩
    | some service =>
      obtain ⟨result, s', hservice⟩ := exists_findService hfind hsize
      simp only [Exec.bind_apply, hservice]
      obtain ⟨result', s'', hfinished, hdisposition, hstatus, hreserved'⟩ := finishSyscall_returns
        { result with service_number := some (s.1.registers ABI.kServiceRegister) } s'
      refine ⟨result', s'', hfinished, fun hreturns => ⟨?_, hstatus⟩⟩
      -- The exit service is the one that ends the process.
      have hexit : s.1.registers ABI.kServiceRegister ≠ ABI.kExitSyscall := by
        intro hexit
        rw [findService, if_pos hexit] at hfind
        obtain rfl := Option.some.inj hfind
        have hterminates := exitService_terminates hservice
        exact hreturns (hdisposition.trans hterminates)
      have hreserved := hclosed.keeps_findService hfind hexit s (fun _ _ => rfl)
      rw [hservice] at hreserved
      exact fun reg hreg => (hreserved' reg hreg).trans (hreserved reg hreg)
  obtain ⟨result, s', hhandle, hreturns⟩ := hrun
  rw [hhandle] at hserved
  exact ⟨result, s', hhandle, hserved, hreturns⟩

/-! ## The call -/

section Call

variable {k : Confinement W} {m : Setup W} {s core : Core W} {returnPc : ℕ}
  {result : SoftwareInterruptResult}

/-- `core` is the core in which the dispatcher has returned `result` to the call of `s`. -/
structure Answered (filesystem : Ref W ZeroFS) (mmioBus : Option (MMIOBus W)) (s : Core W)
    (returnPc : ℕ) (result : SoftwareInterruptResult) (core : Core W) : Prop where
  ran : (protectedSyscallDispatcher filesystem).handle ABI.kSyscallVector mmioBus
    ((s.calling returnPc).state, s.world) = (.ok result, core.state, core.world)
  inTrap : InTrap s returnPc core
  byteAt : ∀ address, 512 ≤ address → address < 4000 ∨ 4032 ≤ address →
    core.state.memory.byteAt address = s.state.memory.byteAt address
  flags : core.state.flags = s.state.flags
  halted : core.state.halted = s.state.halted
  hasError : core.state.hasError = s.state.hasError
  errorMessage : core.state.errorMessage = s.state.errorMessage
  reserved : result.disposition ≠ .TerminateProcess → ∀ reg, reg ∉ ABI.resultRegisters →
    core.state.registers reg = s.state.registers.set .R0 80 reg
  status : result.disposition ≠ .TerminateProcess →
    result.status = some (core.state.registers ABI.kStatusRegister)

/-- The frame is outside of what a system call can write to. -/
theorem Answered.of_served (h : UserContext k s)
    (hran : (protectedSyscallDispatcher filesystem).handle ABI.kSyscallVector mmioBus
      ((s.calling returnPc).state, s.world) = (.ok result, core.state, core.world))
    (hserved : Served (s.calling returnPc).state core.state)
    (hcore : core.usingKernelInterruptStack = true)
    (hreturns : result.disposition ≠ .TerminateProcess →
      SameReserved (s.calling returnPc).state core.state
        ∧ result.status = some (core.state.registers ABI.kStatusRegister)) :
    Answered filesystem mmioBus s returnPc result core := by
  have htrap := InTrap.of_trapped h returnPc
  have hsize : core.state.memory.size = 4096 := hserved.size.trans htrap.size
  refine ⟨hran, ⟨hserved.privilegeLevel, hserved.sp, hcore, hsize, ?_⟩, fun address hle hframe => ?_,
    hserved.flags, hserved.halted, hserved.hasError, hserved.errorMessage,
    fun hr => (hreturns hr).1, fun hr => (hreturns hr).2⟩
  · rw [← htrap.frame]
    refine Frame.read_congr (by rw [hsize]; decide) (by rw [htrap.size]; decide) fun a hle hlt => ?_
    exact hserved.byteAt a (by omega)
  · refine (hserved.byteAt address hle).trans ?_
    exact Frame.byteAt_write _ (by rw [h.memory_size]; decide) (by omega)

/-- The core after a call that was answered with `result`. -/
def answered (s : Core W) (returnPc : ℕ) (result : SoftwareInterruptResult) (core : Core W) :
    Core W :=
  let core := { s.returned returnPc core with
    softwareInterruptObservation := some ⟨ABI.kSyscallVector, result⟩ }
  if result.disposition = .TerminateProcess then { core with
    processExitRequest := some result.exit_code
    state := { core.state with halted := true } }
  else core

/-- A system call is the dispatcher's run, one check of the return address, and one assignment. -/
theorem serviceHost_syscall (h : UserContext k s)
    (hm : m.softwareInterruptHandler = some (protectedSyscallDispatcher filesystem))
    (hpc : returnPc < 2 ^ 63) :
    ∃ result core, Answered filesystem m.mmioBus s returnPc result core
      ∧ CPU.serviceHostSoftwareInterrupt m ABI.kSyscallVector returnPc s
        = match CPU.returnAllowed m (result.disposition == .TerminateProcess) returnPc with
          | .error e => (.error e, core)
          | .ok _ => (.ok true, answered s returnPc result core) := by
  obtain ⟨result, ⟨state, world⟩, hhandle, hserved, hreturns⟩ :=
    protectedSyscallDispatcher_returns filesystem m.mmioBus
      (s := ((s.calling returnPc).state, (s.calling returnPc).world))
      ((by decide : 512 ≤ 4096).trans_eq (InTrap.of_trapped h returnPc).size.symm)
  set core : Core W := { s.calling returnPc with state := state, world := world } with hcore
  have hanswered : Answered filesystem m.mmioBus s returnPc result core :=
    .of_served h hhandle hserved rfl hreturns
  refine ⟨result, core, hanswered, ?_⟩
  have hrun : Exec.onError (Exec.zoom Core.stateWorldRef
      ((protectedSyscallDispatcher filesystem).handle ABI.kSyscallVector m.mmioBus))
      (CPU.restoreInterruptFrame m "Negative host software interrupt return address" false)
      (s.calling returnPc) = (.ok result, core) := by
    rw [Exec.onError, Exec.zoom_apply]
    simp only [Core.stateWorldRef, hhandle]
    rfl
  unfold CPU.serviceHostSoftwareInterrupt
  rw [hm]
  have hhandles : (protectedSyscallDispatcher filesystem).handles ABI.kSyscallVector = true := rfl
  have hvector : CPU.setRegister .R0 (Word.ofSize ABI.kSyscallVector.toNat) (s.trapped returnPc)
      = (.ok (), s.calling returnPc) := rfl
  simp only [hhandles, Bool.not_true, Bool.false_eq_true, if_false]
  rw [bind_of_ok (CPU.pushInterruptFrame_user h returnPc), bind_of_ok hvector, bind_of_ok hrun,
    Exec.bind_apply, CPU.restoreInterruptFrame_user h hanswered.inTrap hpc]
  cases CPU.returnAllowed m (result.disposition == .TerminateProcess) returnPc with
  | error e => rfl
  | ok u =>
    -- Ending the process is the last assignment, and is made to the returned core.
    by_cases hends : result.disposition = .TerminateProcess
    · simp only [Exec.bind_apply, modify_apply, hends, if_true, answered]
      rfl
    · simp only [Exec.bind_apply, modify_apply, hends, if_false, answered]
      rfl

/-- Executing an `INT` whose operand is the system call vector is the call. -/
theorem perform_syscall [LongDouble] {e : Engine} {i : InstructionView}
    {r : Ref W InterruptController} {value : Word} {called : Core W}
    (hm : m.softwareInterruptHandler = some (protectedSyscallDispatcher filesystem))
    (hr : m.interruptController = some r) (hop : i.opcode = .INT) (hone : i.oneOperand = .ok ())
    (hsource : CPU.readSource m i.dst s = (.ok value, called))
    (hvector : CPU.interruptVector value = .ok ABI.kSyscallVector) (h : UserContext k called)
    (hpc : called.state.pc + e.size < 2 ^ 63) :
    ∃ result core, Answered filesystem m.mmioBus called (called.state.pc + e.size) result core
      ∧ CPU.perform e m i s
        = match CPU.returnAllowed m (result.disposition == .TerminateProcess)
            (called.state.pc + e.size) with
          | .error error => (.error error, core)
          | .ok _ => (.ok (), answered called (called.state.pc + e.size) result core) := by
  obtain ⟨result, core, hanswered, hservice⟩ := serviceHost_syscall h hm hpc
  refine ⟨result, core, hanswered, ?_⟩
  have hprivilege : CPU.requireInstructionPrivilege i.opcode s = (.ok (), s) := by
    simp only [hop, CPU.requireInstructionPrivilege, Exec.bind_apply, get_apply]
    split_ifs <;> rfl
  rw [CPU.perform, bind_of_ok hprivilege, hop]
  simp only [CPU.performInt, hr]
  rw [bind_of_ok (by rw [lift_apply, hone] : Exec.lift i.oneOperand s = (.ok (), s)),
    bind_of_ok hsource,
    bind_of_ok (by rw [lift_apply, hvector] :
      Exec.lift (CPU.interruptVector value) called = (.ok ABI.kSyscallVector, called)),
    Exec.bind_apply, get_apply]
  simp only [Exec.bind_apply, hservice]
  cases CPU.returnAllowed m (result.disposition == .TerminateProcess)
    (called.state.pc + e.size) with
  | error error => rfl
  | ok u => rfl

end Call

/-! ## The contract -/

/-- The next instruction is an `INT` whose operand is the system call vector. -/
def AtSyscall (cpu : CPU W) : Prop :=
  ∃ e i value called, CPU.current cpu.setup cpu.core.state = .ok (e, i) ∧ i.opcode = .INT
    ∧ i.oneOperand = .ok () ∧ CPU.readSource cpu.setup i.dst cpu.stepCore = (.ok value, called)
    ∧ CPU.interruptVector value = .ok ABI.kSyscallVector

/-- `INT 80` in a binary program is a system call. -/
theorem atSyscall_of_fetched {cpu : CPU W} {instruction : Instruction}
    (hb : cpu.setup.hasBinaryProgram = true)
    (hf : CPU.fetched cpu.setup cpu.core.state
      = .ok (⟨.INT, .Immediate, .None, 80, 0⟩, instruction)) : AtSyscall cpu := by
  refine ⟨Engine.binary cpu.setup, DecodedInstruction.view cpu.setup ⟨.INT, .Immediate, .None, 80, 0⟩,
    80, cpu.stepCore, ?_, rfl, rfl, rfl, rfl⟩
  rw [CPU.current, if_pos hb, hf]
  rfl

/-- What a system call of `s` that goes back to its caller with `status` has left on the CPU. -/
structure SyscallReturned (s : Core W) (status : Option Word) (core : Core W) : Prop where
  privilege : core.state.privilegeLevel = .user
  pc : core.state.pc = s.state.pc + 24
  sp : core.state.sp = s.state.sp
  zero : core.state.flags.zero = s.state.flags.zero
  sign : core.state.flags.sign = s.state.flags.sign
  carry : core.state.flags.carry = s.state.flags.carry
  overflow : core.state.flags.overflow = s.state.flags.overflow
  kernel_sp : core.kernelStackPointer = s.kernelStackPointer
  kernel_stack_idle : core.usingKernelInterruptStack = false
  vector : core.state.registers .R0 = 80
  status : status = some (core.state.registers .R4)
  registers : ∀ reg ∈ [RegisterName.R1, .R5, .R6, .R7],
    core.state.registers reg = s.state.registers reg
  size : core.state.memory.size = s.state.memory.size
  byteAt : ∀ address, MemoryMap.kUserDataEndExclusive ≤ address →
    address < s.kernelStackPointer ∨ s.kernelStackPointer + CPU.kInterruptFrameSize ≤ address →
    core.state.memory.byteAt address = s.state.memory.byteAt address

/-- A core that the dispatcher has answered, back in User mode. -/
theorem SyscallReturned.of_answered {k : Confinement W} {s core : Core W}
    {result : SoftwareInterruptResult} (h : UserContext k s)
    (ha : Answered filesystem mmioBus s (s.state.pc + 24) result core)
    (hreturns : result.disposition ≠ .TerminateProcess) :
    SyscallReturned s result.status (answered s (s.state.pc + 24) result core) := by
  rw [answered, if_neg hreturns]
  obtain ⟨hzero, hsign, hcarry, hoverflow⟩ := restoreFlags_packFlags core.state.flags s.state.flags
  have hreserved := ha.reserved hreturns
  exact {
    privilege := rfl
    pc := rfl
    sp := rfl
    zero := hzero
    sign := hsign
    carry := hcarry
    overflow := hoverflow
    kernel_sp := h.kernel_sp.symm
    kernel_stack_idle := rfl
    vector := (hreserved .R0 (by decide)).trans (RegisterFile.set_self _ _ _)
    status := ha.status hreturns
    -- Only the vector and the result registers may differ.
    registers := by
      intro reg hreg
      have hne : reg ≠ .R0 ∧ reg ∉ ABI.resultRegisters := by
        revert reg
        decide
      exact (hreserved reg hne.2).trans (RegisterFile.set_of_ne _ _ hne.1)
    size := ha.inTrap.size.trans h.memory_size.symm
    byteAt := by
      intro address hle hframe
      rw [h.kernel_sp] at hframe
      exact ha.byteAt address hle hframe }

/-- The contract only reads what the clock leaves alone. -/
theorem SyscallReturned.of_same {s s' core core' : Core W} {status : Option Word}
    (h : SyscallReturned s status core) (hstate : s.state = s'.state)
    (hksp : s.kernelStackPointer = s'.kernelStackPointer) (hs : SameMachine core core') :
    SyscallReturned s' status core' where
  privilege := hs.privilege.trans h.privilege
  pc := hs.pc.trans (h.pc.trans (by rw [hstate]))
  sp := hs.sp.trans (h.sp.trans (by rw [hstate]))
  zero := by rw [hs.flags, h.zero, hstate]
  sign := by rw [hs.flags, h.sign, hstate]
  carry := by rw [hs.flags, h.carry, hstate]
  overflow := by rw [hs.flags, h.overflow, hstate]
  kernel_sp := hs.kernel_sp.trans (h.kernel_sp.trans hksp)
  kernel_stack_idle := hs.onKernelStack.trans h.kernel_stack_idle
  vector := by rw [hs.registers, h.vector]
  status := by rw [hs.registers, h.status]
  registers reg hreg := by rw [hs.registers, h.registers reg hreg, hstate]
  size := by rw [hs.memory, h.size, hstate]
  byteAt address hle hframe := by
    rw [← hksp] at hframe
    rw [hs.memory, h.byteAt address hle hframe, hstate]

section Step

variable {k : Confinement W} {cpu : CPU W}

/-- A step from a system call, up to what the clock does after it. -/
theorem step_syscall [LongDouble] (hk : k.Fits cpu.setup) (h : UserRunning k cpu.core)
    (hm : cpu.setup.softwareInterruptHandler = some (protectedSyscallDispatcher filesystem))
    {r : Ref W InterruptController} (hr : cpu.setup.interruptController = some r)
    (hcall : AtSyscall cpu) :
    ∃ result called core, called.state = cpu.core.state ∧ UserExec k called
      ∧ Answered filesystem cpu.setup.mmioBus called (cpu.core.state.pc + 24) result core
      ∧ match CPU.returnAllowed cpu.setup (result.disposition == .TerminateProcess)
          (cpu.core.state.pc + 24) with
        | .error _ => SameMachine core cpu.step.core ∧ cpu.step.core.state.hasError = true
        | .ok _ => SameMachine (answered called (cpu.core.state.pc + 24) result core) cpu.step.core := by
  obtain ⟨e, i, value, called, hcurrent, hop, hone, hsource, hvector⟩ := hcall
  have hstart : UserRunning k cpu.stepCore := { h with }
  have hruns : cpu.Runs e i := by
    refine ⟨?_, CPU.servicePendingInterruptIfNeeded_apply hk h.world, hcurrent⟩
    rintro (hhalted | herror)
    · exact Bool.false_ne_true (h.not_halted.symm.trans hhalted)
    · exact Bool.false_ne_true (h.no_error.symm.trans herror)
  -- The instruction comes from the code section, so that PC is in it.
  obtain ⟨hsize, hexec⟩ : e.size = 24 ∧ UserExec k cpu.stepCore := by
    rw [CPU.current, if_pos hk.binary] at hcurrent
    cases hf : CPU.fetched cpu.setup cpu.core.state with
    | error message =>
      rw [hf] at hcurrent
      cases hcurrent
    | ok p =>
      rw [hf] at hcurrent
      obtain ⟨rfl, -⟩ := Prod.ext_iff.mp (Except.ok.inj hcurrent)
      exact ⟨rfl, { hstart with pc_in_code := CPU.fetched_inCode hk hstart.toUserContext hf }⟩
  have hcalled : UserExec k called := by
    have hkeep := CPU.keeps_readSource hk i.dst cpu.stepCore hexec
    rwa [hsource] at hkeep
  have hstate : called.state = cpu.core.state := by
    have hkeep := CPU.keeps_untouched_readSource i.dst cpu.stepCore
      (⟨rfl, rfl, rfl⟩ : Untouched cpu.stepCore cpu.stepCore) (m := cpu.setup)
    rw [hsource] at hkeep
    exact hkeep.state
  have hpc : called.state.pc + e.size < 2 ^ 63 := by
    have := hcalled.pc_in_code
    have := hk.le
    omega
  obtain ⟨result, core, hanswered, hperform⟩ :=
    perform_syscall hm hr hop hone hsource hvector hcalled.toUserContext hpc
  obtain ⟨hsame, herror⟩ := CPU.step_of_runs hruns
  rw [hstate, hsize] at hanswered hperform
  refine ⟨result, called, core, hstate, hcalled, hanswered, ?_⟩
  rw [hperform] at hsame herror
  cases hallowed : CPU.returnAllowed cpu.setup (result.disposition == .TerminateProcess)
      (cpu.core.state.pc + 24) with
  | error message =>
    rw [hallowed] at hsame herror
    exact ⟨hsame, herror (by rintro ⟨⟩)⟩
  | ok u =>
    rw [hallowed] at hsame
    exact hsame

/-- A system call whose next instruction is in the User code keeps the contract. -/
theorem syscall_returns [LongDouble] (hk : k.Fits cpu.setup) (h : UserRunning k cpu.core)
    (hm : cpu.setup.softwareInterruptHandler = some (protectedSyscallDispatcher filesystem))
    {r : Ref W InterruptController} (hr : cpu.setup.interruptController = some r)
    (hcall : AtSyscall cpu) (hend : cpu.core.state.pc + 24 < cpu.setup.userCodeEndExclusive) :
    ∃ result, cpu.step.core.softwareInterruptObservation = some ⟨ABI.kSyscallVector, result⟩
      ∧ (result.disposition ≠ .TerminateProcess →
        SyscallReturned cpu.core result.status cpu.step.core) := by
  obtain ⟨result, called, core, hstate, hcalled, hanswered, hstep⟩ := step_syscall hk h hm hr hcall
  have haddress : CPU.requireExecutionAddress cpu.setup (cpu.core.state.pc + 24) .user = .ok () := by
    have hge := h.pc_ge
    have hpc := h.pc_aligned
    have hlen := hk.aligned
    rw [hk.range_end] at hend
    refine (CPU.requireExecutionAddress_user hk.toUserSetup _).mpr ⟨by omega, by omega, by omega⟩
  -- The call is not the last instruction, so its return address is a code address.
  have hallowed : CPU.returnAllowed cpu.setup (result.disposition == .TerminateProcess)
      (cpu.core.state.pc + 24) = .ok () := by
    rw [CPU.returnAllowed]
    split_ifs
    · rfl
    · exact haddress
  rw [hallowed] at hstep
  refine ⟨result, ?_, fun hreturns => ?_⟩
  · refine hstep.observation.trans ?_
    rw [answered]
    split_ifs <;> rfl
  · have hksp : called.kernelStackPointer = cpu.core.kernelStackPointer :=
      hcalled.kernel_sp.trans h.kernel_sp.symm
    rw [← hstate] at hanswered hstep
    exact (SyscallReturned.of_answered hcalled.toUserContext hanswered hreturns).of_same hstate hksp
      hstep

end Step

end Kernel

end ZeroCpu
