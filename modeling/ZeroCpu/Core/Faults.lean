import ZeroCpu.Core.Stack
import ZeroCpu.Core.Step

/-!
# Precise faults

Every instruction reads and checks before it writes: when it throws, only devices can have been
touched. `Precise` says so of a computation, and `Commits` of the writes that end an instruction,
which never throw. Nothing but a caught exception sets the CPU's error flag.
-/

namespace ZeroCpu

open Library Exec

variable {W : Type}

/-- The core is `s` up to the devices' world. -/
structure Untouched (s core : Core W) : Prop where
  state : core.state = s.state
  kernel_sp : core.kernelStackPointer = s.kernelStackPointer
  idle : core.usingKernelInterruptStack = s.usingKernelInterruptStack

theorem Untouched.hasError {s core : Core W} (h : Untouched s core) :
    core.state.hasError = s.state.hasError := by
  rw [h.state]

namespace CPU

section Reads

variable {α β : Type} {s : Core W} {m : Setup W}

/-! ## Computations that only read -/

/-- What happens to the world leaves the architectural state untouched. -/
theorem keeps_untouched_zoom {x : Exec Str W α} :
    Keeps (Untouched s) (Exec.zoom Core.worldRef x) := fun _ h => { h with }

/-- A data read leaves the state untouched, also from a device. -/
theorem keeps_untouched_readDataMemory (address : ℕ) :
    Keeps (Untouched s) (readDataMemory m address) := by
  refine Keeps.bind (Keeps.get.bind fun _ => Keeps.require _ _) fun _ => ?_
  cases busAt m address with
  | some bus => exact keeps_untouched_zoom
  | none => exact Keeps.get.bind fun _ => Keeps.lift _

/-- Reading an operand leaves the state untouched. -/
theorem keeps_untouched_readSource (v : OperandView) :
    Keeps (Untouched s) (readSource m v) := by
  refine Keeps.get.bind fun core => (Keeps.lift _).bind fun source => ?_
  cases source with
  | inl value => exact Keeps.pure value
  | inr address => exact keeps_untouched_readDataMemory address

/-- The check for a register operand leaves the state untouched. -/
theorem keeps_untouched_requireRegister (v : OperandView) :
    Keeps (Untouched s) (requireRegister v : Op W Unit) :=
  (Keeps.lift _).bind fun _ => Keeps.pure _

/-- Taking the address of an operand leaves the state untouched. -/
theorem keeps_untouched_readAddress (v : OperandView) :
    Keeps (Untouched s) (readAddress v : Op W ℕ) := Keeps.get.bind fun _ => Keeps.lift _

/-- The privilege check leaves the state untouched. -/
theorem keeps_untouched_privilege (opcode : Opcode) :
    Keeps (Untouched s) (requireInstructionPrivilege opcode) := by
  refine Keeps.get.bind fun core => ?_
  split
  · exact Keeps.pure _
  · split
    all_goals first | exact Keeps.throw _ | exact Keeps.pure _

end Reads

/-! ## Computations that throw before they write -/

/-- A throw leaves the core as `s` up to the devices; a return leaves the error flag alone. -/
abbrev Precise (s : Core W) {α : Type} (x : Op W α) : Prop :=
  Triple (Untouched s) x (fun _ core => core.state.hasError = s.state.hasError)
    (fun _ => Untouched s)

/-- The computation always returns and leaves the error flag alone. -/
abbrev Commits (s : Core W) {α : Type} (x : Op W α) : Prop :=
  Triple (fun core => core.state.hasError = s.state.hasError) x
    (fun _ core => core.state.hasError = s.state.hasError) (fun _ _ => False)

section Precise

variable {α β : Type} {s : Core W} {m : Setup W} {e : Engine} {i : InstructionView}
  {v : OperandView}

/-- Reading comes first. -/
theorem Precise.after {x : Op W α} {f : α → Op W β} (hx : Keeps (Untouched s) x)
    (hf : ∀ a, Precise s (f a)) : Precise s (x >>= f) := Triple.bind hx.triple hf

/-- The rest of an instruction may use what its check established. -/
theorem Precise.check {r : Except Str α} {f : α → Op W β}
    (hf : ∀ a, r = .ok a → Precise s (f a)) : Precise s (Exec.lift r >>= f) := by
  intro core h
  cases r with
  | error e => exact h
  | ok a => exact hf a rfl core h

/-- The rest of an instruction may use that nothing has been touched yet. -/
theorem Precise.read {f : Core W → Op W α}
    (hf : ∀ core, Untouched s core → Precise s (f core)) : Precise s (Exec.get >>= f) :=
  fun core h => hf core h core h

/-- Writing comes last. -/
theorem Precise.commit {x : Op W α} {f : α → Op W β} (hx : Precise s x)
    (hf : ∀ a, Commits s (f a)) : Precise s (x >>= f) :=
  Triple.bind hx fun a => (hf a).conseq (fun _ h => h) (fun _ _ h => h) fun _ _ h => h.elim

theorem Precise.throw {error : Str} : Precise s (Exec.throw error : Op W α) := fun _ h => h

theorem Commits.precise {x : Op W α} (h : Commits s x) : Precise s x :=
  h.conseq (fun _ h => h.hasError) (fun _ _ h => h) fun _ _ h => h.elim

theorem Commits.bind {x : Op W α} {f : α → Op W β} (hx : Commits s x)
    (hf : ∀ a, Commits s (f a)) : Commits s (x >>= f) := Triple.bind hx hf

/-! ## The writes that end an instruction -/

theorem commits_pure (a : α) : Commits s (pure a : Op W α) := fun _ h => h

theorem commits_modifyState {f : CPUState → CPUState}
    (hf : ∀ state, (f state).hasError = state.hasError) : Commits s (modifyState f) :=
  fun core h => (hf core.state).trans h

theorem commits_advance (size : ℕ) : Commits s (advanceUnlessHalted size) := by
  refine commits_modifyState fun state => ?_
  split_ifs <;> rfl

theorem commits_modifyFlags (f : Flags → Flags) : Commits s (modifyFlags f) :=
  commits_modifyState fun _ => rfl

theorem commits_setPc (address : ℕ) : Commits s (setPc address) :=
  commits_modifyState fun _ => rfl

/-- Writing an operand that is a register does not throw. -/
theorem commits_writeRegister {reg : RegisterName} (hreg : v.register = .ok reg) (value : Word) :
    Commits s (writeRegister v value) := by
  intro core h
  rw [writeRegister, hreg]
  exact h

/-- Past the check of its destination, a move does not throw. -/
theorem commits_finishMove {reg : RegisterName} (hreg : v.register = .ok reg) (value : Word) :
    Commits s (finishMove e v value) :=
  (commits_writeRegister hreg value).bind fun _ => (commits_modifyFlags _).bind fun _ =>
    commits_advance _

/-- Past the check of its destination, an arithmetic instruction does not throw. -/
theorem commits_finishALU {reg : RegisterName} (hreg : v.register = .ok reg) (result : ALUResult) :
    Commits s (finishALU e v result) :=
  (commits_writeRegister hreg _).bind fun _ => (commits_modifyFlags _).bind fun _ =>
    commits_advance _

/-- Only a register destination gets past the check, and writing to it cannot fail. -/
theorem Precise.toRegister {f : Unit → Op W α}
    (hf : ∀ reg, v.register = .ok reg → Precise s (f ())) :
    Precise s (requireRegister v >>= f) := by
  intro core h
  cases hreg : v.register with
  | error error => simp only [requireRegister, hreg]; exact h
  | ok reg =>
    have hpass : requireRegister v core = (.ok (), core) := by
      rw [requireRegister, hreg]
      rfl
    rw [bind_of_ok hpass]
    exact hf reg hreg core h

/-! ## Stacks and memory -/

/-- A write to RAM checks its bounds before it writes. -/
theorem precise_writeMemory (address : ℕ) (value : Word) :
    Precise s (writeMemory address value) := by
  intro core h
  rw [writeMemory_apply]
  cases core.state.memory.checkRange address 8 with
  | error error => exact h
  | ok _ => exact h.hasError

/-- A data write checks everything before it writes. -/
theorem precise_writeDataMemory (address : ℕ) (value : Word) :
    Precise s (writeDataMemory m address value) := by
  refine Precise.after (Keeps.get.bind fun _ => Keeps.require _ _) fun _ => ?_
  cases busAt m address with
  | none => exact precise_writeMemory address value
  | some bus =>
    exact keeps_untouched_zoom.triple.conseq (fun _ h => h) (fun _ _ h => h.hasError)
      fun _ _ h => h

/-- A push checks its slot before it writes. -/
theorem precise_pushValue (value : Word) : Precise s (pushValue value) := by
  intro core h
  rw [pushValue_apply]
  cases checkPush core with
  | error error => exact h
  | ok _ => exact h.hasError

/-- A pop checks its slot before it moves the stack pointer. -/
theorem precise_popValue : Precise s (popValue : Op W Word) := by
  intro core h
  rw [popValue_apply]
  cases topValue core with
  | error error => exact h
  | ok _ => exact h.hasError

/-- Reading the top of the stack leaves the state untouched. -/
theorem keeps_untouched_peekValue : Keeps (Untouched s) (peekValue : Op W Word) := by
  intro core h
  rw [peekValue_apply]
  exact h

/-! ## Interrupt frames -/

/-- Finding the place of a frame leaves the state untouched. -/
theorem keeps_untouched_interruptFrameBase :
    Keeps (Untouched s) (interruptFrameBase : Op W ℕ) := by
  refine Keeps.get.bind fun core => ?_
  split_ifs
  · exact (Keeps.lift _).bind fun _ => (Keeps.lift _).bind fun _ => Keeps.pure _
  · exact Keeps.bind (Keeps.get.bind fun _ => Keeps.lift _) fun _ => Keeps.pure _

/-- The frame fits into memory wherever it goes. -/
theorem interruptFrameBase_fits {core : Core W} (hsize : core.state.memory.size = 4096) {base : ℕ}
    {core' : Core W} (h : interruptFrameBase core = (.ok base, core')) : base + 32 ≤ 4096 := by
  unfold interruptFrameBase at h
  simp only [↓get_bind_eq_ok] at h
  split_ifs at h with huser
  · simp only [↓lift_bind_eq_ok, pure_eq_ok] at h
    obtain ⟨_, -, _, hpush, rfl, -⟩ := h
    exact (requireStackPushSlotsAt_eq_ok.mp hpush).2
  · obtain ⟨_, _, hpush, h⟩ := Exec.bind_eq_ok.mp h
    obtain ⟨rfl, -⟩ := pure_eq_ok.mp h
    have hle := (requireStackPushSlotsAt_eq_ok.mp (lift_eq_ok.mp hpush).1).2
    have hend : activeStackEndExclusive core ≤ 4096 := by
      unfold activeStackEndExclusive
      split_ifs
      · exact (by decide : MemoryMap.kUserStackEndExclusive ≤ 4096)
      · exact Nat.le_refl 4096
      · exact hsize.le
    simp only [kInterruptFrameSlotCount] at hle
    omega

/-- A store inside memory always succeeds. -/
theorem writeMemory_of_fits {core : Core W} (hsize : core.state.memory.size = 4096) {address : ℕ}
    (hle : address + 8 ≤ 4096) (value : Word) :
    writeMemory address value core = (.ok (), core.store address value)
      ∧ (core.store address value).state.memory.size = 4096 := by
  have hfit : address + 8 ≤ core.state.memory.size := by omega
  refine ⟨by rw [writeMemory_apply, Memory.checkRange_eq_ok.mpr hfit], ?_⟩
  refine (Memory.size_splice ?_).trans hsize
  rw [length_leBytes]
  exact hfit

/-- With the whole memory there, a frame is written at once or not at all. -/
theorem precise_pushInterruptFrame (hsize : s.state.memory.size = 4096) (returnAddress : ℕ) :
    Precise s (pushInterruptFrame returnAddress) := by
  refine Precise.read fun core hcore => ?_
  refine Triple.bind (fun c hc => ?_ : Triple _ _
    (fun base c => Untouched s c ∧ base + 32 ≤ 4096) _) fun base c hc => ?_
  · have hkeep := keeps_untouched_interruptFrameBase c hc
    cases hout : interruptFrameBase c with
    | mk result c' =>
      rw [hout] at hkeep
      rcases result with error | base
      · exact hkeep
      · exact ⟨hkeep, interruptFrameBase_fits (hc.state ▸ hsize) hout⟩
  · -- The four stores succeed and the rest only assigns.
    obtain ⟨hc, hle⟩ := hc
    have hbase : c.state.memory.size = 4096 := hc.state ▸ hsize
    obtain ⟨h1, hs1⟩ := writeMemory_of_fits hbase (by omega : base + 8 ≤ 4096)
      (Word.ofSize returnAddress)
    obtain ⟨h2, hs2⟩ := writeMemory_of_fits hs1 (by omega : base + 8 + 8 ≤ 4096)
      (packFlags core.state.flags)
    obtain ⟨h3, hs3⟩ := writeMemory_of_fits hs2 (by omega : base + 8 * 2 + 8 ≤ 4096)
      (privilegeLevelToRaw core.state.privilegeLevel)
    obtain ⟨h4, -⟩ := writeMemory_of_fits hs3 (by omega : base + 8 * 3 + 8 ≤ 4096)
      (Word.ofSize core.state.sp)
    simp only [kStackSlotSize]
    rw [bind_of_ok h1, bind_of_ok h2, bind_of_ok h3, bind_of_ok h4]
    exact hc.hasError

theorem commits_setStackPointer (value : ℕ) : Commits s (setStackPointer value) := by
  exact fun _ h => h

/-- What an interrupt return does once its return address is accepted. -/
theorem precise_restore (sp pc base : ℕ) (privilege : PrivilegeLevel) (flags : Word) :
    Precise s (do
      requireRestoredStackPointer sp privilege
      modifyFlags fun f => restoreFlags f flags
      modifyState fun state => { state with privilegeLevel := privilege, pc := pc }
      if privilege = .user then
        Exec.modify fun core => { core with
          state := { core.state with sp := sp }
          kernelStackPointer :=
            if core.usingKernelInterruptStack then base else core.kernelStackPointer
          usingKernelInterruptStack := false }
      else setStackPointer sp : Op W Unit) := by
  have hpointer : Keeps (Untouched s) (requireRestoredStackPointer sp privilege : Op W Unit) := by
    refine Keeps.get.bind fun _ => ?_
    split_ifs <;> exact Keeps.lift _
  refine Precise.after hpointer fun _ => Commits.precise ?_
  refine (commits_modifyFlags _).bind fun _ => (commits_modifyState ?_).bind fun _ => ?_
  · exact fun _ => rfl
  · split_ifs
    · exact fun _ h => h
    · exact commits_setStackPointer sp

/-- A return from an interrupt checks the whole frame before it restores anything. -/
theorem precise_restoreInterruptFrame (error : Str) (allowUserCodeEnd : Bool) :
    Precise s (restoreInterruptFrame m error allowUserCodeEnd) := by
  have hread : ∀ address, Keeps (Untouched s) (readMemory address : Op W Word) :=
    fun _ => Keeps.get.bind fun _ => Keeps.lift _
  refine Precise.after (Keeps.get.bind fun _ => Keeps.lift _) fun _ => Precise.read fun core _ =>
    Precise.after (hread _) fun _ => Precise.after (hread _) fun flags => Precise.after (hread _)
      fun _ => Precise.after (hread _) fun _ => Precise.check fun privilege _ =>
        Precise.check fun pc _ => Precise.check fun sp _ => ?_
  have hrest := precise_restore (W := W) (s := s) sp pc (core.state.sp - kInterruptFrameSize)
    privilege flags
  dsimp only
  split
  · exact Precise.check fun _ _ => hrest
  · exact hrest

/-! ## Interrupt entry -/

/-- Entering a handler is precise. -/
theorem precise_enterVectorHandler (hsize : s.state.memory.size = 4096)
    (r : Ref W InterruptController) (vector : UInt8) (returnAddress : ℕ) (handlerOk : ℕ → Bool)
    (handlerError : Str) :
    Precise s (enterVectorHandler r vector returnAddress handlerOk handlerError) := by
  refine Precise.read fun _ _ => Precise.check fun handler _ =>
    Precise.after (Keeps.require _ _) fun _ => ?_
  exact (precise_pushInterruptFrame hsize returnAddress).commit fun _ =>
    (commits_modifyState fun _ => rfl).bind fun _ => commits_setPc handler

/-- A request whose service fails has been acknowledged and is lost; nothing else has happened. -/
theorem precise_servicePending (hsize : s.state.memory.size = 4096) :
    Precise s (servicePendingInterruptIfNeeded m) := by
  refine Precise.read fun core hcore => ?_
  cases m.interruptController with
  | none => exact fun _ h => h.hasError
  | some r =>
    dsimp only
    split_ifs
    · exact fun _ h => h.hasError
    all_goals
      refine Precise.check fun acknowledged _ => Precise.after (fun _ h => { h with }) fun _ =>
        Precise.check fun handler _ => Precise.after (Keeps.require _ _) fun _ => ?_
      exact (precise_pushInterruptFrame hsize _).commit fun _ =>
        (commits_modifyState fun _ => rfl).bind fun _ => (commits_modifyState fun _ => rfl).bind
          fun _ => (commits_setPc handler).bind fun _ => commits_pure true

/-- Without a host handler there is nothing to serve. -/
theorem keeps_untouched_service (hm : m.softwareInterruptHandler = none) (vector : UInt8)
    (returnAddress : ℕ) :
    Keeps (Untouched s) (serviceHostSoftwareInterrupt m vector returnAddress) := by
  rw [serviceHostSoftwareInterrupt, hm]
  exact Keeps.pure false

/-! ## Instructions -/

/-- An arithmetic instruction is precise. -/
theorem precise_performALU (op : Word → Word → Except Str ALUResult) :
    Precise s (performALU op e m i) := by
  refine Precise.check fun _ _ => Precise.toRegister fun reg hreg => ?_
  refine Precise.after (keeps_untouched_readSource _) fun _ =>
    Precise.after (keeps_untouched_readSource _) fun _ => Precise.check fun result _ => ?_
  exact (commits_finishALU hreg result).precise

/-- A comparison is precise. -/
theorem precise_performComparison (op : Word → Word → ALUResult) :
    Precise s (performComparison op e m i) := by
  refine Precise.check fun _ _ => Precise.after (keeps_untouched_readSource _) fun _ =>
    Precise.after (keeps_untouched_readSource _) fun _ => ?_
  exact ((commits_modifyFlags _).bind fun _ => commits_advance _).precise

theorem precise_performJump : Precise s (performJump m v) := by
  refine Precise.check fun target _ => Precise.read fun _ _ => Precise.check fun _ _ => ?_
  exact (commits_setPc target).precise

/-- A conditional jump is precise. -/
theorem precise_performBranch (taken : Flags → Bool) : Precise s (performBranch taken e m i) := by
  refine Precise.check fun _ _ => Precise.read fun core _ => ?_
  split
  · exact precise_performJump
  · exact (commits_advance _).precise

/-- A call is precise: it checks its target before it pushes. -/
theorem precise_performCall : Precise s (performCall e m i) := by
  refine Precise.check fun _ _ => Precise.check fun target _ => Precise.read fun core _ =>
    Precise.check fun _ _ => Precise.check fun _ _ => ?_
  exact (precise_pushValue _).commit fun _ => commits_setPc target

/-- A return is precise: it checks the address on the stack before it pops. -/
theorem precise_performRet : Precise s (performRet e m i) := by
  refine Precise.check fun _ _ => Precise.after keeps_untouched_peekValue fun _ =>
    Precise.check fun address _ => Precise.read fun core _ => Precise.check fun _ _ => ?_
  exact precise_popValue.commit fun _ => commits_setPc address

/-- A software interrupt without a host handler is precise. -/
theorem precise_performInt (hm : m.softwareInterruptHandler = none)
    (hsize : s.state.memory.size = 4096) : Precise s (performInt e m i) := by
  refine Precise.check fun _ _ => ?_
  cases m.interruptController with
  | none => exact Precise.throw
  | some r =>
    refine Precise.after (keeps_untouched_readSource _) fun _ => Precise.check fun vector _ =>
      Precise.read fun core _ => Precise.after (keeps_untouched_service hm _ _) fun serviced => ?_
    cases serviced with
    | true => exact (commits_pure ()).precise
    | false => exact precise_enterVectorHandler hsize r vector _ _ _

/-- `EI` and `DI` are precise. -/
theorem precise_setInterruptsEnabled (enabled : Bool) (missing : Str) :
    Precise s (setInterruptsEnabled m enabled missing) := by
  unfold setInterruptsEnabled
  cases m.interruptController with
  | none => exact Precise.throw
  | some r => exact fun _ h => h.hasError

/-- Every instruction throws before it writes. -/
theorem precise_perform [LongDouble] (hm : m.softwareInterruptHandler = none)
    (hsize : s.state.memory.size = 4096) : Precise s (perform e m i) := by
  refine Precise.after (keeps_untouched_privilege _) fun _ => ?_
  -- Everything that may throw comes before the first assignment, and what comes after it commits.
  cases i.opcode with
  | NOP => exact Precise.check fun _ _ => (commits_advance _).precise
  | HALT => exact Precise.check fun _ _ => (commits_modifyState fun _ => rfl).precise
  | MOV =>
    refine Precise.check fun _ _ => Precise.toRegister fun reg hreg => ?_
    exact Precise.after (keeps_untouched_readSource _) fun value =>
      (commits_finishMove hreg value).precise
  | LOAD =>
    refine Precise.check fun _ _ => Precise.toRegister fun reg hreg => ?_
    exact Precise.after (keeps_untouched_readAddress _) fun address =>
      Precise.after (keeps_untouched_readDataMemory address) fun value =>
        (commits_finishMove hreg value).precise
  | STORE =>
    refine Precise.check fun _ _ => Precise.after (keeps_untouched_readAddress _) fun address =>
      Precise.after (keeps_untouched_readSource _) fun value => ?_
    exact (precise_writeDataMemory address value).commit fun _ =>
      (commits_modifyFlags _).bind fun _ => commits_advance _
  | NOT =>
    refine Precise.check fun _ _ => Precise.toRegister fun reg hreg => ?_
    exact Precise.after (keeps_untouched_readSource _) fun _ => (commits_finishALU hreg _).precise
  | JMP => exact Precise.check fun _ _ => precise_performJump
  | PUSH =>
    refine Precise.check fun _ _ => Precise.after (keeps_untouched_readSource _) fun value => ?_
    exact (precise_pushValue value).commit fun _ => commits_advance _
  | POP =>
    refine Precise.check fun _ _ => Precise.toRegister fun reg hreg => ?_
    exact precise_popValue.commit fun value => commits_finishMove hreg value
  | CALL => exact precise_performCall
  | RET => exact precise_performRet
  | IRET => exact Precise.check fun _ _ => precise_restoreInterruptFrame _ _
  | EI | DI =>
    exact Precise.check fun _ _ => (precise_setInterruptsEnabled _ _).commit fun _ =>
      commits_advance _
  | INT => exact precise_performInt hm hsize
  | ADD | SUB | MUL | DIV | AND | OR | XOR => exact precise_performALU _
  | CMP | TEST => exact precise_performComparison _
  | JE | JNE | JG | JL => exact precise_performBranch _
  | Invalid => exact Precise.throw

/-- So does fetching and executing, in either representation. -/
theorem precise_instructionPart [LongDouble] (hm : m.softwareInterruptHandler = none)
    (hsize : s.state.memory.size = 4096) : Precise s (instructionPart m) := by
  intro core h
  unfold instructionPart
  split_ifs
  · cases fetched m core.state with
    | error message => exact h
    | ok p =>
      simp only [executeBinaryInstruction_eq_perform]
      exact precise_perform hm hsize core h
  · cases fetchedProgram m core.state with
    | error message => exact h
    | ok instruction =>
      simp only [execute_eq_perform]
      exact precise_perform hm hsize core h

/-! ## Steps -/

/-- Devices whose ticks do not throw do not throw together. -/
theorem commits_tickDevices {devices : List (ClockedDevice W)}
    (hclock : ∀ device ∈ devices, ∀ world, (device.tick world).1 = .ok ()) :
    Commits s (tickDevices devices) := by
  induction devices with
  | nil => exact commits_pure ()
  | cons device rest ih =>
    have htick : Commits s (Exec.zoom Core.worldRef device.tick) := by
      intro core h
      rw [zoom_apply]
      have hok := hclock device List.mem_cons_self (Core.worldRef.get core)
      rw [hok]
      exact h
    exact htick.bind fun _ => ih fun d hd => hclock d (List.mem_cons_of_mem device hd)

/-- With clocked devices that do not throw, the whole step throws before it writes. -/
theorem precise_finishInstruction [LongDouble] (hm : m.softwareInterruptHandler = none)
    (hsize : s.state.memory.size = 4096)
    (hclock : ∀ device ∈ m.clockedDevices, ∀ world, (device.tick world).1 = .ok ()) :
    Precise s (finishInstruction m (instructionPart m)) := by
  refine (precise_instructionPart hm hsize).commit fun _ => ?_
  intro core h
  simp only [tickUnlessStopped, bind_apply, get_apply]
  split_ifs
  · exact commits_tickDevices hclock core h
  · exact h

/-- An outcome that settles in error, from a core without error, was a throw. -/
theorem untouched_of_settle {outcome : Except Str Unit × Core W}
    (hs : s.state.hasError = false)
    (h : Post (fun _ core => core.state.hasError = s.state.hasError) (fun _ => Untouched s) outcome)
    (herror : (settle outcome).state.hasError = true) :
    ∃ core message, settle outcome = setRuntimeError message core ∧ Untouched s core := by
  rcases outcome with ⟨message | _, core⟩
  · exact ⟨core, message, rfl, h⟩
  · exact absurd (herror.symm.trans (Eq.trans h hs)) (by simp)

/-- A step that services no pending interrupt and ends in error has changed nothing of the machine
except the error itself. The memory of a `CPU` always has its 4096 bytes. -/
theorem step_precise [LongDouble] {cpu : CPU W} (hhandler : cpu.setup.softwareInterruptHandler = none)
    (hclock : ∀ device ∈ cpu.setup.clockedDevices, ∀ world, (device.tick world).1 = .ok ())
    (hsize : cpu.core.state.memory.size = MemoryMap.kDefaultMemorySize)
    (hservice : ¬ cpu.ServicesPending) (herror : cpu.step.core.state.hasError = true) :
    cpu.step.core.state.registers = cpu.core.state.registers
      ∧ cpu.step.core.state.flags = cpu.core.state.flags
      ∧ cpu.step.core.state.pc = cpu.core.state.pc
      ∧ cpu.step.core.state.sp = cpu.core.state.sp
      ∧ cpu.step.core.state.privilegeLevel = cpu.core.state.privilegeLevel
      ∧ cpu.step.core.state.memory = cpu.core.state.memory
      ∧ cpu.step.core.kernelStackPointer = cpu.core.kernelStackPointer
      ∧ cpu.step.core.usingKernelInterruptStack = cpu.core.usingKernelInterruptStack := by
  by_cases hrun : cpu.Stopped
  · rw [step_of_stopped hrun]
    exact ⟨rfl, rfl, rfl, rfl, rfl, rfl, rfl, rfl⟩
  · have hstart : Untouched cpu.stepCore cpu.stepCore := ⟨rfl, rfl, rfl⟩
    have hok : cpu.stepCore.state.hasError = false := (Bool.not_eq_true _).mp (not_or.mp hrun).2
    -- Either servicing the pending request threw, or there was none and the instruction did.
    obtain ⟨core, message, hcore, huntouched⟩ : ∃ core message,
        cpu.step.core = setRuntimeError message core ∧ Untouched cpu.stepCore core := by
      have hsize : cpu.stepCore.state.memory.size = 4096 := hsize
      have hprecise := precise_servicePending (m := cpu.setup) hsize cpu.stepCore hstart
      rcases hs : servicePendingInterruptIfNeeded cpu.setup cpu.stepCore with ⟨message | serviced, core⟩
      · rw [hs] at hprecise
        exact ⟨core, message, step_of_serviceError hrun hs, hprecise⟩
      · cases serviced with
        | true => exact absurd ⟨core, hs⟩ hservice
        | false =>
          have hcore : cpu.step.core = settle (finishInstruction cpu.setup
              (instructionPart cpu.setup) cpu.stepCore) := by
            rw [step_of_running hrun hs, stepInstruction_core, servicePending_eq_false hs]
          rw [hcore] at herror ⊢
          exact untouched_of_settle hok
            (precise_finishInstruction hhandler hsize hclock cpu.stepCore hstart) herror
    rw [hcore]
    obtain ⟨hstate, hkernel, husing⟩ := huntouched
    simp only [setRuntimeError, Core.updateState, CPUState.setError, hstate, hkernel, husing]
    exact ⟨rfl, rfl, rfl, rfl, rfl, rfl, rfl, rfl⟩

/-- A CPU before `DIV R0, R1`, both zero. -/
def divideByZero : CPU Unit :=
  let code := [0x23, 1, 1, 0] ++ leBytes 8 (0 : Word) ++ leBytes 8 (1 : Word) ++ [0, 0, 0, 0]
  (loadBinaryProgram ⟨{ code_size := 24 }, code, []⟩ (CPU.new ())).2

/-- A division by zero. -/
theorem step_precise_divideByZero :
    letI : LongDouble := LongDouble.x87
    divideByZero.setup.hasBinaryProgram = true
      ∧ divideByZero.step.core.state.hasError = true
      ∧ divideByZero.step.core.state.memory = divideByZero.core.state.memory := by
  have herror : (@step _ LongDouble.x87 divideByZero).core.state.hasError = true := by
    decide +kernel
  have hhandler : divideByZero.setup.softwareInterruptHandler = none := by decide +kernel
  have hcontroller : divideByZero.setup.interruptController = none := by decide +kernel
  have hclock : divideByZero.setup.clockedDevices = [] := by decide +kernel
  have hservice : ¬ divideByZero.ServicesPending := by
    rintro ⟨core, h⟩
    have hpending : divideByZero.NoPending := by
      intro r hr
      rw [hcontroller] at hr
      cases hr
    rw [servicePending_of_noPending hpending] at h
    cases (Prod.ext_iff.mp h).1
  obtain ⟨-, -, -, -, -, hmemory, -, -⟩ := @step_precise _ LongDouble.x87 divideByZero hhandler
    (by rw [hclock]; exact nofun) (by decide +kernel) hservice herror
  exact ⟨by decide +kernel, herror, hmemory⟩

end Precise

end CPU

end ZeroCpu
