import ZeroCpu.Kernel.SyscallReturn

/-!
# User mode with system calls

A process that calls the dispatcher stays inside its confinement. One call does not bring it back: a
call from the last instruction of the code whose service returns leaves the CPU on the Kernel
interrupt stack, since the address behind the code cannot be executed. `step_user` says that a step
does one or the other.
-/

namespace ZeroCpu.Kernel

open Library Exec Sys

variable {W : Type} {k : Confinement W} {m : Setup W} {filesystem : Ref W ZeroFS}

/-- The CPU's handler is the dispatcher, and its file system and devices keep the property of the
world. The frame of a call is outside of what a process must leave alone. -/
structure SyscallsFit (k : Confinement W) (m : Setup W) (filesystem : Ref W ZeroFS) : Prop where
  handler : m.softwareInterruptHandler = some (protectedSyscallDispatcher filesystem)
  frame_free : ∀ i, k.frozen i → i < 4000
  set_filesystem : ∀ fs world, k.worldOk world → k.worldOk (filesystem.set fs world)
  bus_read : ∀ bus, m.mmioBus = some bus → ∀ address, Keeps k.worldOk (bus.read address)
  bus_write : ∀ bus, m.mmioBus = some bus → ∀ address value, Keeps k.worldOk (bus.write address value)

/-! ## The world -/

section World

variable {Q : W → Prop} {mmioBus : Option (MMIOBus W)}

theorem keeps_world_putRegister {ε : Type} (reg : RegisterName) (value : Word) :
    Keeps (fun p : CPUState × W => Q p.2) (putRegister reg value : Exec ε _ Unit) :=
  Keeps.modify fun _ h => h

theorem keeps_world_finishSyscall (result : SoftwareInterruptResult) :
    Keeps (fun p : CPUState × W => Q p.2) (finishSyscall result) :=
  (keeps_world_putRegister _ _).bind fun _ => Keeps.pure _

/-- A device access keeps what the device keeps, whether it throws or not. -/
theorem keeps_world_device {α : Type} {x : Exec Str W α} (hx : Keeps Q x) :
    Keeps (fun p : CPUState × W => Q p.2)
      (Exec.attempt (Exec.zoom hardwareWrite.worldRef x) : Exec Str _ _) :=
  Keeps.attempt fun p h => hx p.2 h

/-- The hardware services keep what the bus keeps. -/
theorem keeps_world_hardwareService (serviceNumber : Word)
    (hread : ∀ bus, mmioBus = some bus → ∀ address, Keeps Q (bus.read address))
    (hwrite : ∀ bus, mmioBus = some bus → ∀ address value, Keeps Q (bus.write address value)) :
    Keeps (fun p : CPUState × W => Q p.2) (hardwareService serviceNumber mmioBus) := by
  refine (Keeps.gets _).bind fun offsetValue => ?_
  dsimp only
  split
  · exact Keeps.pure _
  · split
    · exact Keeps.pure _
    · next bus =>
      split
      · exact Keeps.pure _
      · split
        · refine (Keeps.gets _).bind fun value =>
            (keeps_world_device (hwrite bus rfl _ value)).bind fun outcome => ?_
          cases outcome with
          | ok u => exact Keeps.pure _
          | error e => exact Keeps.pure _
        · refine (keeps_world_device (hread bus rfl _)).bind fun outcome => ?_
          cases outcome with
          | ok value => exact (keeps_world_putRegister _ _).bind fun _ => Keeps.pure _
          | error e => exact Keeps.pure _

/-- A system call changes the world through the devices and the file system only. -/
theorem keeps_world_dispatcher
    (hset : ∀ fs world, Q world → Q (filesystem.set fs world))
    (hread : ∀ bus, mmioBus = some bus → ∀ address, Keeps Q (bus.read address))
    (hwrite : ∀ bus, mmioBus = some bus → ∀ address value, Keeps Q (bus.write address value))
    (vector : UInt8) :
    Keeps (fun p : CPUState × W => Q p.2)
      ((protectedSyscallDispatcher filesystem).handle vector mmioBus) := by
  show Keeps _ (if vector != ABI.kSyscallVector then _ else _)
  split
  · exact keeps_world_finishSyscall _
  · refine (Keeps.gets _).bind fun serviceNumber => ?_
    cases hfind : findService filesystem mmioBus serviceNumber with
    | none => exact keeps_world_finishSyscall _
    | some service =>
      refine Keeps.bind ?_ fun _ => keeps_world_finishSyscall _
      rw [findService] at hfind
      split_ifs at hfind
      · obtain rfl := Option.some.inj hfind
        exact (Keeps.gets _).bind fun _ => (keeps_world_putRegister _ _).bind fun _ => Keeps.pure _
      · obtain rfl := Option.some.inj hfind
        exact keeps_world_hardwareService serviceNumber hread hwrite
      · obtain rfl := Option.some.inj hfind
        exact fun p h => hset _ _ h

end World

/-! ## The call -/

/-- A call that has been answered goes back into the confinement. -/
theorem userContext_answered (hh : SyscallsFit k m filesystem) (hk : k.Fits m) {s core : Core W}
    {result : SoftwareInterruptResult} (h : UserExec k s)
    (ha : Answered filesystem m.mmioBus s (s.state.pc + 24) result core) :
    UserContext k (answered s (s.state.pc + 24) result core)
      ∧ (answered s (s.state.pc + 24) result core).state.hasError = false := by
  have hworld : k.worldOk core.world := by
    have hkeep := keeps_world_dispatcher hh.set_filesystem hh.bus_read hh.bus_write
      ABI.kSyscallVector ((s.calling (s.state.pc + 24)).state, s.world) h.world
    rwa [ha.ran] at hkeep
  have hge := h.pc_ge
  have haligned : (s.state.pc + 24) % 24 = 512 % 24 := by
    have := h.pc_aligned
    omega
  -- A call writes to the data window and its frame, both outside what is frozen.
  have hmemory : ∀ i, k.frozen i → core.state.memory.byteAt i = k.memory.byteAt i := by
    intro i hi
    have hout := hk.frozen_outside i hi
    exact (ha.byteAt i hout.1 (.inl (hh.frame_free i hi))).trans (h.memory i hi)
  have hreturned : UserContext k (s.returned (s.state.pc + 24) core) :=
    { privilege := rfl
      memory_size := ha.inTrap.size
      memory := hmemory
      kernel_stack_idle := rfl
      kernel_sp := rfl
      sp_ge := h.sp_ge
      sp_le := h.sp_le
      sp_aligned := h.sp_aligned
      pc_ge := by show 512 ≤ s.state.pc + 24; omega
      pc_le := h.pc_in_code
      pc_aligned := haligned
      world := hworld }
  have herror : core.state.hasError = false := ha.hasError.trans h.no_error
  rw [answered]
  split_ifs
  · exact ⟨{ hreturned with }, herror⟩
  · exact ⟨{ hreturned with }, herror⟩

/-- The operand of the instruction is the vector of system calls. -/
def CallsSystem (m : Setup W) (i : InstructionView) (core : Core W) : Prop :=
  i.oneOperand = .ok () ∧ ∃ value called, CPU.readSource m i.dst core = (.ok value, called)
    ∧ CPU.interruptVector value = .ok ABI.kSyscallVector

/-- An `INT` ends inside the confinement, unless it calls the system: then an error may leave the CPU
on the Kernel interrupt stack. -/
theorem performInt_user (hk : k.Fits m) (hh : SyscallsFit k m filesystem) {e : Engine}
    (he : e.size = 24) (i : InstructionView) {core : Core W} (h : UserExec k core) :
    Post (fun _ core' => UserContext k core')
      (fun _ core' => UserContext k core'
        ∨ CallsSystem m i core ∧ core'.usingKernelInterruptStack = true)
      (CPU.performInt e m i core) := by
  unfold CPU.performInt
  cases hone : i.oneOperand with
  | error e => exact .inl h.toUserContext
  | ok u =>
  rw [bind_of_ok (lift_apply (.ok u) core)]
  cases hr : m.interruptController with
  | none => exact .inl h.toUserContext
  | some r =>
  dsimp only
  cases hsource : CPU.readSource m i.dst core with
  | mk read called =>
  have hcalled : UserExec k called := by
    have hkeep := CPU.keeps_readSource hk i.dst core h
    rwa [hsource] at hkeep
  cases read with
  | error e =>
    rw [bind_of_error hsource]
    exact .inl hcalled.toUserContext
  | ok value =>
  rw [bind_of_ok hsource]
  cases hvalue : CPU.interruptVector value with
  | error e => exact .inl hcalled.toUserContext
  | ok vector =>
  rw [bind_of_ok (lift_apply (.ok vector) called)]
  have hpc : called.state.pc + 24 < 2 ^ 63 := by
    have := hcalled.pc_in_code
    have := hk.le
    omega
  by_cases hvector : vector = ABI.kSyscallVector
  · subst hvector
    obtain ⟨result, after, ha, hservice⟩ := serviceHost_syscall hcalled.toUserContext hh.handler hpc
    simp only [Exec.bind_apply, get_apply, he, hservice]
    cases CPU.returnAllowed m (result.disposition == .TerminateProcess) (called.state.pc + 24) with
    | error message => exact .inr ⟨⟨hone, value, called, hsource, hvalue⟩, ha.inTrap.onKernelStack⟩
    | ok u => exact (userContext_answered hh hk hcalled ha).1
  · -- The dispatcher does not take another vector, which has no handler of its own.
    have hhandles : (protectedSyscallDispatcher filesystem).handles vector = false :=
      beq_eq_false_iff_ne.mpr hvector
    have hservice : CPU.serviceHostSoftwareInterrupt m vector (called.state.pc + e.size) called
        = (.ok false, called) := by
      rw [CPU.serviceHostSoftwareInterrupt, hh.handler]
      simp only [hhandles]
      rfl
    have hconfined := (CPU.confined_enterVectorHandler hk hr vector (called.state.pc + e.size)
      e.handlerOk e.handlerError).conseq (fun _ h => h) (fun _ _ h => h.toUserContext)
      (fun _ core' h => (.inl h.toUserContext : UserContext k core'
        ∨ CallsSystem m i core ∧ core'.usingKernelInterruptStack = true))
    simp only [Exec.bind_apply, get_apply, hservice]
    exact hconfined called hcalled

/-! ## Steps -/

/-- The device tick after an instruction keeps the context. -/
theorem keeps_tickUnlessStopped (hk : k.Fits m) :
    Keeps (UserContext k) (CPU.tickUnlessStopped m) := by
  have hticks : ∀ devices : List (ClockedDevice W), (∀ device ∈ devices, device ∈ m.clockedDevices) →
      Keeps (UserContext k) (CPU.tickDevices devices) := by
    intro devices hdevices
    induction devices with
    | nil => exact Keeps.pure _
    | cons device rest ih =>
      refine Keeps.bind ?_ fun _ => ih fun d hd => hdevices d (List.mem_cons_of_mem _ hd)
      intro core h
      exact { h with
        world := hk.tick device (hdevices device List.mem_cons_self) core.world h.world }
  refine Keeps.get.bind fun core => ?_
  split
  · exact hticks _ fun _ h => h
  · exact Keeps.pure _

/-- An instruction of the code section ends inside the confinement or in a stranded call. -/
theorem perform_user [LongDouble] (hk : k.Fits m) (hh : SyscallsFit k m filesystem) {e : Engine}
    (he : e.size = 24) (i : InstructionView) {core : Core W} (h : UserExec k core) :
    Post (fun _ core' => UserContext k core')
      (fun _ core' => UserContext k core'
        ∨ (i.opcode = .INT ∧ CallsSystem m i core) ∧ core'.usingKernelInterruptStack = true)
      (CPU.perform e m i core) := by
  by_cases hop : i.opcode = .INT
  · have hprivilege : CPU.requireInstructionPrivilege i.opcode core = (.ok (), core) := by
      simp only [hop, CPU.requireInstructionPrivilege, Exec.bind_apply, get_apply]
      split_ifs <;> rfl
    have hint := performInt_user hk hh he i h
    rw [CPU.perform, bind_of_ok hprivilege, hop]
    dsimp only
    generalize CPU.performInt e m i core = out at hint ⊢
    rcases out with ⟨message | u, core'⟩
    · exact hint.imp_right fun hstranded => ⟨⟨rfl, hstranded.1⟩, hstranded.2⟩
    · exact hint
  · exact ((CPU.confined_perform hk he i hop).conseq (fun _ h => h) (fun _ _ h => h.toUserContext)
      fun _ _ h => .inl h.toUserContext) core h

/-- A step stays inside the confinement unless it strands a system call, which is an error. -/
theorem step_user [LongDouble] (hk : k.Fits m) (hh : SyscallsFit k m filesystem) {cpu : CPU W}
    (hsetup : cpu.setup = m) (h : UserContext k cpu.core) :
    UserContext k cpu.step.core
      ∨ AtSyscall cpu ∧ cpu.step.core.state.hasError = true
        ∧ cpu.step.core.usingKernelInterruptStack = true := by
  subst hsetup
  by_cases hstop : CPU.Stopped cpu
  · rw [CPU.step_of_stopped hstop]
    exact .inl h
  -- Without a vector no pending request is delivered, so the step is the instruction.
  · have hpending : cpu.NoPending := by
      intro r hr
      refine InterruptController.hasPending_of_vectorTable fun vector => ?_
      exact hk.no_vector r hr cpu.core.world h.world vector
    obtain ⟨hhalted, herror⟩ := not_or.mp hstop
    have hrun : UserRunning k cpu.stepCore :=
      { h with
        not_halted := Bool.eq_false_iff.mpr hhalted
        no_error := Bool.eq_false_iff.mpr herror }
    -- The context is kept, or a call throws between frame and handler and leaves the interrupt
    -- stack active.
    have hpart : Post (fun _ core => UserContext k core)
        (fun _ core => UserContext k core ∨ AtSyscall cpu ∧ core.usingKernelInterruptStack = true)
        (CPU.instructionPart cpu.setup cpu.stepCore) := by
      unfold CPU.instructionPart
      rw [if_pos hk.binary]
      cases hf : CPU.fetched cpu.setup cpu.stepCore.state with
      | error message => exact .inl hrun.toUserContext
      | ok p =>
        have hcurrent : CPU.current cpu.setup cpu.core.state
            = .ok (Engine.binary cpu.setup, p.1.view cpu.setup) := by
          have hfetched : CPU.fetched cpu.setup cpu.core.state = .ok p := hf
          rw [CPU.current, if_pos hk.binary, hfetched]
          rfl
        have hexec : UserExec k cpu.stepCore :=
          { hrun with pc_in_code := CPU.fetched_inCode hk hrun.toUserContext hf }
        have hperform := perform_user hk hh (e := Engine.binary cpu.setup) rfl (p.1.view cpu.setup)
          hexec
        simp only [CPU.executeBinaryInstruction_eq_perform]
        generalize CPU.perform (Engine.binary cpu.setup) cpu.setup (p.1.view cpu.setup) cpu.stepCore
          = out at hperform ⊢
        rcases out with ⟨message | u, core⟩
        · refine hperform.imp_right fun hstranded => ⟨?_, hstranded.2⟩
          obtain ⟨⟨hop, hone, value, called, hsource, hvector⟩, -⟩ := hstranded
          exact ⟨_, _, value, called, hcurrent, hop, hone, hsource, hvector⟩
        · exact hperform
    rw [CPU.step_core hstop hpending, CPU.finishInstruction, Exec.bind_apply]
    generalize CPU.instructionPart cpu.setup cpu.stepCore = out at hpart
    rcases out with ⟨message | u, core⟩
    · exact hpart.imp (fun h => { h with }) fun h => ⟨h.1, rfl, h.2⟩
    · have hticked := keeps_tickUnlessStopped hk core hpart
      show UserContext k (CPU.settle (CPU.tickUnlessStopped cpu.setup core)) ∨ _
      generalize CPU.tickUnlessStopped cpu.setup core = out at hticked ⊢
      rcases out with ⟨message | u, core'⟩
      · exact .inl { hticked with }
      · exact .inl hticked

end ZeroCpu.Kernel
