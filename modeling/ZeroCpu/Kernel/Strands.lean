import ZeroCpu.Kernel.UserSyscalls

/-!
# Stranded system calls

Reference: `src/core/CPU.cpp`, `serviceHostSoftwareInterrupt` and `restoreInterruptFrame`;
`src/kernel/ProtectedSyscallDispatcher.cpp`.

The return address of a system call at the end of the code is behind the code, and `returnAllowed`
accepts it from a call that ends its process only. The exit service is the one that ends a process.
So whether a call strands its process can be read off before the call is made: `Strands`.
-/

namespace ZeroCpu.Kernel

open Library Exec Sys

variable {W : Type} {filesystem : Ref W ZeroFS} {mmioBus : Option (MMIOBus W)}

/-! ## What the services return -/

/-- The service goes back to its caller. -/
def GoesBack (result : SoftwareInterruptResult) : Prop := result.disposition = .ReturnToCaller

/-- A write to the hardware returns to its caller. -/
theorem yields_hardwareWrite (bus : MMIOBus W) (address : ℕ) {result : SoftwareInterruptResult}
    (h : GoesBack result) : Yields GoesBack (hardwareWrite bus address result) := by
  refine Yields.after fun value => Yields.after fun outcome => ?_
  cases outcome with
  | ok u => exact Yields.pure h
  | error e => exact Yields.pure h

/-- A read of the hardware returns to its caller. -/
theorem yields_hardwareRead (bus : MMIOBus W) (address : ℕ) {result : SoftwareInterruptResult}
    (h : GoesBack result) : Yields GoesBack (hardwareRead bus address result) := by
  refine Yields.after fun outcome => ?_
  cases outcome with
  | ok value => exact Yields.after fun _ => Yields.pure h
  | error e => exact Yields.pure h

/-- The hardware services return to their caller. -/
theorem yields_hardwareService (serviceNumber : Word) (mmioBus : Option (MMIOBus W)) :
    Yields GoesBack (hardwareService serviceNumber mmioBus) := by
  refine Yields.after fun offsetValue => ?_
  dsimp only
  split
  · exact Yields.pure rfl
  · split
    · exact Yields.pure rfl
    · split
      · exact Yields.pure rfl
      · split
        · exact yields_hardwareWrite _ _ rfl
        · exact yields_hardwareRead _ _ rfl

/-- `FS_STAT` returns to its caller. -/
theorem yields_filesystemStat (requestAddress : Word) (path : Str)
    {result : SoftwareInterruptResult} (h : GoesBack result) :
    Yields GoesBack (filesystemStat requestAddress path result) := by
  refine Yields.after fun s => Yields.after fun stat => ?_
  split
  · exact Yields.pure h
  · refine Yields.after fun written => ?_
    split
    · exact Yields.pure h
    · exact Yields.after fun _ => Yields.after fun _ => Yields.pure h

/-- `FS_READ` returns to its caller. -/
theorem yields_filesystemRead (path : Str) (fileOffset bufferAddress transferCount : Word)
    {result : SoftwareInterruptResult} (h : GoesBack result) :
    Yields GoesBack (filesystemRead path fileOffset bufferAddress transferCount result) :=
  Yields.after fun _ => Yields.after fun _ => Yields.after fun _ => Yields.after fun _ =>
    Yields.after fun _ => Yields.pure h

/-- `FS_WRITE` returns to its caller. -/
theorem yields_filesystemWrite (path : Str) (fileOffset bufferAddress transferCount : Word)
    {result : SoftwareInterruptResult} (h : GoesBack result) :
    Yields GoesBack (filesystemWrite path fileOffset bufferAddress transferCount result) :=
  Yields.after fun _ => Yields.after fun _ => Yields.after fun _ => Yields.after fun _ =>
    Yields.after fun _ => Yields.pure h

/-- A transfer returns to its caller. -/
theorem yields_filesystemTransfer (serviceNumber requestAddress : Word) (path : Str)
    {result : SoftwareInterruptResult} (h : GoesBack result) :
    Yields GoesBack (filesystemTransfer serviceNumber requestAddress path result) := by
  refine Yields.after fun s => Yields.after fun transfer => ?_
  cases transfer with
  | none => exact Yields.pure h
  | some fields =>
    dsimp only
    split
    · exact Yields.pure h
    · split
      · exact Yields.pure h
      · split
        · exact yields_filesystemRead _ _ _ _ h
        · exact yields_filesystemWrite _ _ _ _ h

/-- The services of the file system return to their caller. -/
theorem yields_filesystemService (serviceNumber : Word) :
    Yields GoesBack (filesystemService serviceNumber) := by
  refine Yields.after fun requestAddress => Yields.after fun s => Yields.after fun path => ?_
  cases path with
  | error pathStatus => exact Yields.pure rfl
  | ok path =>
    refine Yields.bind (Yields.attempt (Q := GoesBack) ?_) fun outcome houtcome => ?_
    · rw [filesystemCall]
      split
      · exact yields_filesystemStat _ _ rfl
      · exact yields_filesystemTransfer _ _ _ rfl
    · cases outcome with
      | ok result => exact Yields.pure (houtcome result rfl)
      | error fault => exact Yields.pure rfl

/-- Finishing a call leaves its disposition alone. -/
theorem yields_finishSyscall {Q : SoftwareInterruptDisposition → Prop}
    {result : SoftwareInterruptResult} (h : Q result.disposition) :
    Yields (fun r => Q r.disposition)
      (finishSyscall result : Service W SoftwareInterruptResult) :=
  Yields.after fun _ => Yields.pure h

/-- A system call ends its process exactly when it asks for the exit service. -/
theorem dispatcher_terminates_iff {s s' : CPUState × W} {result : SoftwareInterruptResult}
    (h : (protectedSyscallDispatcher filesystem).handle ABI.kSyscallVector mmioBus s
      = (.ok result, s')) :
    result.disposition = .TerminateProcess
      ↔ s.1.registers ABI.kServiceRegister = ABI.kExitSyscall := by
  have hrun := h
  simp only [protectedSyscallDispatcher, bne_self_eq_false, Bool.false_eq_true, if_false] at hrun
  rw [getRegister, bind_of_ok (gets_apply _ _)] at hrun
  by_cases hexit : s.1.registers ABI.kServiceRegister = ABI.kExitSyscall
  · rw [hexit, findService, if_pos rfl] at hrun
    dsimp only at hrun
    obtain ⟨exited, t, hservice, hfinish⟩ := Exec.bind_eq_ok.mp hrun
    have hends := exitService_terminates hservice
    have hdisposition : ({ exited with service_number := some ABI.kExitSyscall } :
        SoftwareInterruptResult).disposition = .TerminateProcess := hends
    exact iff_of_true (yields_finishSyscall (Q := (· = .TerminateProcess)) (W := W) hdisposition t
      result s' hfinish) hexit
  -- No service but the exit service asks for termination.
  · have hback : GoesBack result := by
      cases hfind : findService filesystem mmioBus (s.1.registers ABI.kServiceRegister) with
      | none =>
        rw [hfind] at hrun
        exact yields_finishSyscall (Q := (· = .ReturnToCaller)) (W := W) rfl s result s' hrun
      | some service =>
        rw [hfind] at hrun
        dsimp only at hrun
        obtain ⟨served, t, hservice, hfinish⟩ := Exec.bind_eq_ok.mp hrun
        have hserved : GoesBack served := by
          rw [findService, if_neg hexit] at hfind
          split_ifs at hfind
          · obtain rfl := Option.some.inj hfind
            exact yields_hardwareService _ _ s served t hservice
          · obtain rfl := Option.some.inj hfind
            exact Yields.zoom (yields_filesystemService _) s served t hservice
        have hdisposition : ({ served with
            service_number := some (s.1.registers ABI.kServiceRegister) } :
            SoftwareInterruptResult).disposition = .ReturnToCaller := hserved
        exact yields_finishSyscall (Q := (· = .ReturnToCaller)) (W := W) hdisposition t result s' hfinish
    refine iff_of_false (fun hends => ?_) hexit
    rw [hback] at hends
    cases hends

/-! ## The call -/

/-- The next instruction is a system call at the end of the code, to a service that comes back. -/
structure Strands (cpu : CPU W) : Prop where
  handler : cpu.setup.softwareInterruptHandler.isSome = true
  call : AtSyscall cpu
  last : cpu.core.state.pc + 24 = cpu.setup.userCodeEndExclusive
  returns : cpu.core.state.registers ABI.kServiceRegister ≠ ABI.kExitSyscall

section Step

variable {k : Confinement W} {cpu : CPU W}

/-- A system call is refused its return exactly when it strands its process. -/
theorem returnAllowed_of_answered (hk : k.Fits cpu.setup) {called core : Core W}
    (h : UserExec k called) (hstate : called.state = cpu.core.state)
    (hm : cpu.setup.softwareInterruptHandler = some (protectedSyscallDispatcher filesystem))
    (hcall : AtSyscall cpu) {result : SoftwareInterruptResult}
    (ha : Answered filesystem cpu.setup.mmioBus called (cpu.core.state.pc + 24) result core) :
    CPU.returnAllowed cpu.setup (result.disposition == .TerminateProcess) (cpu.core.state.pc + 24)
      = .ok () ↔ ¬ Strands cpu := by
  have hends : result.disposition = .TerminateProcess
      ↔ cpu.core.state.registers ABI.kServiceRegister = ABI.kExitSyscall := by
    rw [← hstate]
    exact dispatcher_terminates_iff ha.ran
  -- The address after the call is a code address unless the code ends there.
  have hlast : CPU.requireExecutionAddress cpu.setup (cpu.core.state.pc + 24) .user = .ok ()
      ↔ cpu.core.state.pc + 24 ≠ cpu.setup.userCodeEndExclusive := by
    have hge := h.pc_ge
    have hpc := h.pc_in_code
    have haligned := h.pc_aligned
    have hlen := hk.aligned
    rw [hstate] at hge hpc haligned
    rw [hk.range_end, CPU.requireExecutionAddress_user hk.toUserSetup]
    constructor
    · rintro ⟨-, hlt, -⟩
      omega
    · intro hne
      exact ⟨by omega, by omega, by omega⟩
  rw [CPU.returnAllowed, hk.has_range, Bool.and_true]
  split_ifs with hexit
  · rw [Bool.and_eq_true, beq_iff_eq, beq_iff_eq] at hexit
    exact iff_of_true rfl fun hs => hs.returns (hends.mp hexit.1)
  · rw [hlast]
    constructor
    · exact fun hne hs => hne hs.last
    · intro hno heq
      refine hno ⟨?_, hcall, heq, fun hservice => hexit ?_⟩
      · rw [hm]
        rfl
      · rw [Bool.and_eq_true, beq_iff_eq, beq_iff_eq]
        exact ⟨hends.mpr hservice, heq⟩

/-- A system call from User mode strands its process exactly when `Strands` says so. -/
theorem stranded_iff [LongDouble] (hk : k.Fits cpu.setup) (h : UserRunning k cpu.core)
    (hm : cpu.setup.softwareInterruptHandler = some (protectedSyscallDispatcher filesystem))
    {r : Ref W InterruptController} (hr : cpu.setup.interruptController = some r)
    (hcall : AtSyscall cpu) :
    (Strands cpu → cpu.step.core.state.hasError = true)
      ∧ (cpu.step.core.usingKernelInterruptStack = true ↔ Strands cpu) := by
  obtain ⟨result, called, core, hstate, hcalled, hanswered, hstep⟩ := step_syscall hk h hm hr hcall
  have hallowed := returnAllowed_of_answered hk hcalled hstate hm hcall hanswered
  generalize CPU.returnAllowed cpu.setup (result.disposition == .TerminateProcess)
    (cpu.core.state.pc + 24) = allowed at hstep hallowed
  cases allowed with
  | error message =>
    have hstrands : Strands cpu := by
      by_contra hno
      cases hallowed.mpr hno
    refine ⟨fun _ => hstep.2, iff_of_true ?_ hstrands⟩
    exact hstep.1.onKernelStack.trans hanswered.inTrap.onKernelStack
  | ok u =>
    have hno : ¬ Strands cpu := hallowed.mp rfl
    refine ⟨fun hs => absurd hs hno, iff_of_false (fun hstack => ?_) hno⟩
    rw [hstep.onKernelStack, answered] at hstack
    split_ifs at hstack <;> cases hstack

end Step

end ZeroCpu.Kernel
