import ZeroCpu.Core.Closed

/-!
# What interrupt entries and returns do to the core

An entry stores a frame and moves to Kernel mode on another stack, a return moves back. Apart from
the updates of `Core.Closed` both assign to the privilege level, PC and the stack pointers only, so a
property that survives these as well survives every part of interrupt handling but the call of a host
handler.
-/

namespace ZeroCpu

open Library Exec CPU

variable {W : Type}

/-- `P` survives the updates of an instruction, and a change of privilege level, PC and stack. -/
structure Core.TrapClosed (P : Core W → Prop) : Prop extends Core.Closed P where
  trap : ∀ {core : Core W} (privilege : PrivilegeLevel) (pc sp kernelSp : ℕ) (onKernelStack : Bool),
    P core → P { core with
      state := { core.state with privilegeLevel := privilege, pc := pc, sp := sp }
      kernelStackPointer := kernelSp
      usingKernelInterruptStack := onKernelStack }

namespace Core.TrapClosed

variable {P : Core W → Prop} {m : Setup W}

/-- Pushing an interrupt frame is kept. -/
theorem keeps_pushInterruptFrame (h : Core.TrapClosed P) (returnAddress : ℕ) :
    Keeps P (pushInterruptFrame returnAddress) := by
  have hwrite := fun address value => h.keeps_writeMemory address value
  have hbase : Keeps P (interruptFrameBase : Op W ℕ) := by
    refine Keeps.get.bind fun core => ?_
    split
    · exact (Keeps.lift _).bind fun _ => (Keeps.lift _).bind fun _ => Keeps.pure _
    · exact (Keeps.get.bind fun _ => Keeps.lift _).bind fun _ => Keeps.pure _
  refine Keeps.get.bind fun core => hbase.bind fun base => (hwrite _ _).bind fun _ =>
    (hwrite _ _).bind fun _ => (hwrite _ _).bind fun _ => (hwrite _ _).bind fun _ => ?_
  refine Keeps.bind (Keeps.modify fun core' hP => ?_) fun _ => Keeps.modify fun _ hP => ?_
  · exact h.trap .kernel core'.state.pc core'.state.sp core'.kernelStackPointer _ hP
  · exact h.moveSp _ hP

/-- What an interrupt return does once its return address is accepted. -/
theorem keeps_restore (h : Core.TrapClosed P) (sp pc base : ℕ) (privilege : PrivilegeLevel)
    (flags : Word) :
    Keeps P (do
      requireRestoredStackPointer sp privilege
      modifyFlags fun f => restoreFlags f flags
      modifyState fun state => { state with privilegeLevel := privilege, pc := pc }
      if privilege = .user then
        Exec.modify fun core => { core with
          state := { core.state with sp := sp }
          kernelStackPointer :=
            if core.usingKernelInterruptStack then base else core.kernelStackPointer
          usingKernelInterruptStack := false }
      else setStackPointer sp : Op W Unit) := by
  have hpointer : Keeps P (requireRestoredStackPointer sp privilege : Op W Unit) := by
    refine Keeps.get.bind fun _ => ?_
    split_ifs <;> exact Keeps.lift _
  refine hpointer.bind fun _ => Keeps.bind ?_ fun _ => Keeps.bind ?_ fun _ => ?_
  · exact h.keeps_modifyFlags fun flags' => (Flags.SameReserved.refl flags').restoreFlags _
  · exact Keeps.modify fun core hP => h.trap privilege pc core.state.sp core.kernelStackPointer
      core.usingKernelInterruptStack hP
  · split_ifs
    · exact Keeps.modify fun core hP => h.trap core.state.privilegeLevel core.state.pc sp _ false hP
    · exact Keeps.modify fun _ hP => h.moveSp _ hP

/-- Restoring an interrupt frame is kept. -/
theorem keeps_restoreInterruptFrame (h : Core.TrapClosed P) (message : Str)
    (allowUserCodeEnd : Bool) : Keeps P (restoreInterruptFrame m message allowUserCodeEnd) := by
  have hread : ∀ address, Keeps P (readMemory address : Op W Word) :=
    fun address => Keeps.get.bind fun _ => Keeps.lift _
  refine Keeps.bind (Keeps.get.bind fun _ => Keeps.lift _) fun _ => Keeps.get.bind fun core => ?_
  refine (hread _).bind fun _ => (hread _).bind fun flags => (hread _).bind fun _ =>
    (hread _).bind fun _ => (Keeps.lift _).bind fun privilege => (Keeps.lift _).bind fun pc =>
    (Keeps.lift _).bind fun sp => ?_
  have hrest := h.keeps_restore sp pc (core.state.sp - kInterruptFrameSize) privilege flags
  dsimp only
  split
  · exact (Keeps.lift _).bind fun _ => hrest
  · exact hrest

/-- Entering a handler is kept. -/
theorem keeps_enterVectorHandler (h : Core.TrapClosed P) (r : Ref W InterruptController)
    (vector : UInt8) (returnAddress : ℕ) (handlerOk : ℕ → Bool) (handlerError : Str) :
    Keeps P (enterVectorHandler r vector returnAddress handlerOk handlerError) :=
  Keeps.get.bind fun _ => (Keeps.lift _).bind fun handler => (Keeps.require _ _).bind fun _ =>
    (h.keeps_pushInterruptFrame _).bind fun _ => (h.keeps_setRegister _ _).bind fun _ =>
      h.keeps_setPc handler

/-- Taking a pending request is kept. -/
theorem keeps_servicePendingInterrupt (h : Core.TrapClosed P) :
    Keeps P (servicePendingInterruptIfNeeded m) := by
  have henter : ∀ (pc handler : ℕ) (request : InterruptRequest), Keeps P (do
      pushInterruptFrame pc
      setRegister .R0 (Word.ofSize request.vector.toNat)
      setRegister .R1 request.payload
      setPc handler
      pure true : Op W Bool) := fun pc handler request =>
    (h.keeps_pushInterruptFrame pc).bind fun _ => (h.keeps_setRegister _ _).bind fun _ =>
      (h.keeps_setRegister _ _).bind fun _ => (h.keeps_setPc handler).bind fun _ => Keeps.pure _
  refine Keeps.get.bind fun core => ?_
  cases m.interruptController with
  | none => exact Keeps.pure _
  | some r =>
    dsimp only
    split_ifs
    · exact Keeps.pure _
    all_goals
      refine (Keeps.lift _).bind fun acknowledged => Keeps.bind (Keeps.modify fun _ hP => h.world _ hP)
        fun _ => (Keeps.lift _).bind fun handler => (Keeps.require _ _).bind fun _ => henter _ _ _

/-- Ticks are kept. -/
theorem keeps_tickDevices (h : Core.TrapClosed P) (devices : List (ClockedDevice W)) :
    Keeps P (tickDevices devices) := by
  induction devices with
  | nil => exact Keeps.pure _
  | cons device rest ih => exact h.keeps_zoom.bind fun _ => ih

/-! ## Steps -/

/-- What survives the calls of the host handler, if there is one, survives every instruction. -/
theorem keeps_perform_of_service [LongDouble] (h : Core.TrapClosed P)
    (hservice : ∀ vector returnAddress,
      Keeps P (serviceHostSoftwareInterrupt m vector returnAddress)) (e : Engine)
    (i : InstructionView) : Keeps P (perform e m i) := by
  by_cases hint : i.opcode = .INT
  · refine (Core.Closed.keeps_privilege _).bind fun _ => ?_
    rw [hint]
    refine (Keeps.lift _).bind fun _ => ?_
    cases m.interruptController with
    | none => exact Keeps.throw _
    | some r =>
      refine (h.keeps_readSource _).bind fun _ => (Keeps.lift _).bind fun vector =>
        Keeps.get.bind fun _ => (hservice _ _).bind fun serviced => ?_
      cases serviced with
      | true => exact Keeps.pure _
      | false => exact h.keeps_enterVectorHandler _ _ _ _ _
  · by_cases hiret : i.opcode = .IRET
    · refine (Core.Closed.keeps_privilege _).bind fun _ => ?_
      rw [hiret]
      exact (Keeps.lift _).bind fun _ => h.keeps_restoreInterruptFrame _ _
    · exact h.keeps_perform hint hiret

/-- An instruction is kept, when what a host handler does is. -/
theorem keeps_instructionPart [LongDouble] (h : Core.TrapClosed P)
    (hservice : ∀ vector returnAddress,
      Keeps P (serviceHostSoftwareInterrupt m vector returnAddress)) :
    Keeps P (instructionPart m) := by
  intro core hP
  unfold instructionPart
  split_ifs
  · cases fetched m core.state with
    | error message => exact hP
    | ok p =>
      dsimp only
      rw [executeBinaryInstruction_eq_perform]
      exact h.keeps_perform_of_service hservice _ _ core hP
  · cases fetchedProgram m core.state with
    | error message => exact hP
    | ok instruction =>
      dsimp only
      rw [execute_eq_perform]
      exact h.keeps_perform_of_service hservice _ _ core hP

/-- The rest of a step is kept, when what a host handler does is. -/
theorem keeps_finishInstruction [LongDouble] (h : Core.TrapClosed P)
    (hservice : ∀ vector returnAddress,
      Keeps P (serviceHostSoftwareInterrupt m vector returnAddress)) :
    Keeps P (finishInstruction m (instructionPart m)) := by
  refine (h.keeps_instructionPart hservice).bind fun _ => Keeps.get.bind fun core => ?_
  split_ifs
  · exact h.keeps_tickDevices _
  · exact Keeps.pure _

/-- A step keeps what survives errors too. -/
theorem step [LongDouble] (h : Core.TrapClosed P)
    (hsettle : ∀ outcome : Except Str Unit × Core W, P outcome.2 → P (settle outcome)) {cpu : CPU W}
    (hservice : ∀ vector returnAddress,
      Keeps P (serviceHostSoftwareInterrupt cpu.setup vector returnAddress))
    (hrun : ¬ cpu.Stopped) (hP : P cpu.stepCore) : P cpu.step.core := by
  have hpending := h.keeps_servicePendingInterrupt (m := cpu.setup) cpu.stepCore hP
  rcases hout : servicePendingInterruptIfNeeded cpu.setup cpu.stepCore with ⟨message | serviced, core⟩
  · rw [hout] at hpending
    rw [step_of_serviceError hrun hout]
    exact hsettle (.error message, core) hpending
  · rw [hout] at hpending
    cases serviced with
    | true =>
      rw [step_core_of_service hrun hout]
      exact hpending
    | false =>
      obtain rfl := servicePending_eq_false hout
      rw [step_of_running hrun hout, stepInstruction_core]
      exact hsettle _ (h.keeps_finishInstruction hservice cpu.stepCore hP)

end Core.TrapClosed

end ZeroCpu
