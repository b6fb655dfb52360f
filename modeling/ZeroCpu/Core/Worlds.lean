import Mathlib.Data.List.Forall2
import ZeroCpu.Core.Step
import ZeroCpu.Library.Alike

/-!
# One CPU over two worlds

The devices of two CPUs may be different objects, as long as no access tells them apart. Then no
program does: both CPUs take the same steps, in User mode and in Kernel mode, with interrupts, host
handlers and clocked devices, and record the same trace.
-/

namespace ZeroCpu

open Library Exec

variable {W W' α : Type} {R : W → W' → Prop}

/-! ## Corresponding CPUs -/

/-- The members of a CPU next to a world. -/
def Core.beside (core : Core Unit) (world : W) : Core W where
  state := core.state
  kernelStackPointer := core.kernelStackPointer
  usingKernelInterruptStack := core.usingKernelInterruptStack
  softwareInterruptObservation := core.softwareInterruptObservation
  processExitRequest := core.processExitRequest
  world := world

/-- Two CPUs that differ only in their worlds. -/
structure Core.Alike (R : W → W' → Prop) (s : Core W) (t : Core W') : Prop where
  state : s.state = t.state
  kernelStackPointer : s.kernelStackPointer = t.kernelStackPointer
  usingKernelInterruptStack : s.usingKernelInterruptStack = t.usingKernelInterruptStack
  softwareInterruptObservation : s.softwareInterruptObservation = t.softwareInterruptObservation
  processExitRequest : s.processExitRequest = t.processExitRequest
  world : R s.world t.world

/-- Two alike cores are one core beside two related worlds. -/
theorem Core.Alike.exists_beside {s : Core W} {t : Core W'} (h : Core.Alike R s t) :
    ∃ (core : Core Unit) (w : W) (w' : W'), s = core.beside w ∧ t = core.beside w' ∧ R w w' := by
  obtain ⟨state, ksp, idle, observation, exit, w⟩ := s
  obtain ⟨state', ksp', idle', observation', exit', w'⟩ := t
  obtain ⟨rfl, rfl, rfl, rfl, rfl, hworld⟩ := h
  exact ⟨⟨state, ksp, idle, observation, exit, ()⟩, w, w', rfl, rfl, hworld⟩

/-- Two buses that no access tells apart. -/
structure MMIOBus.Alike (R : W → W' → Prop) (bus : MMIOBus W) (bus' : MMIOBus W') : Prop where
  hasDeviceAt : ∀ address, bus.hasDeviceAt address = bus'.hasDeviceAt address
  read : ∀ address, Exec.Alike R (bus.read address) (bus'.read address)
  write : ∀ address value, Exec.Alike R (bus.write address value) (bus'.write address value)

/-- Two mappings of one range to devices that no access tells apart. -/
structure MMIOMapping.Alike (R : W → W' → Prop) (mapping : MMIOMapping W) (mapping' : MMIOMapping W') :
    Prop where
  base : mapping.base = mapping'.base
  size : mapping.size = mapping'.size
  read : ∀ offset, Exec.Alike R (mapping.device.read offset) (mapping'.device.read offset)
  write : ∀ offset value,
    Exec.Alike R (mapping.device.write offset value) (mapping'.device.write offset value)

/-- Alike mappings hold the same addresses. -/
theorem MMIOMapping.Alike.contains {mapping : MMIOMapping W} {mapping' : MMIOMapping W'}
    (h : MMIOMapping.Alike R mapping mapping') (address : ℕ) :
    mapping.contains address = mapping'.contains address := by
  rw [MMIOMapping.contains, MMIOMapping.contains, MMIOMapping.endExclusive, MMIOMapping.endExclusive,
    h.base, h.size]

/-- An address is in no mapping of either bus, or in two alike ones. -/
theorem find?_alike {mappings : List (MMIOMapping W)} {mappings' : List (MMIOMapping W')}
    (h : List.Forall₂ (MMIOMapping.Alike R) mappings mappings') (address : ℕ) :
    Option.Rel (MMIOMapping.Alike R) (mappings.find? fun mapping => mapping.contains address)
      (mappings'.find? fun mapping => mapping.contains address) := by
  induction h with
  | nil => exact .none
  | cons hmapping _ ih =>
    rw [List.find?_cons, List.find?_cons, hmapping.contains]
    split
    · exact .some hmapping
    · exact ih

/-- Alike mappings in the same order. -/
theorem MMIOBus.Alike.of_mappings {bus : MMIOBus W} {bus' : MMIOBus W'}
    (h : List.Forall₂ (MMIOMapping.Alike R) bus.mappings bus'.mappings) : MMIOBus.Alike R bus bus' := by
  -- The three questions to a bus go to the first mapping of the address.
  refine ⟨fun address => ?_, fun address => ?_, fun address value => ?_⟩ <;>
    have hfind := find?_alike h address
  · rw [MMIOBus.hasDeviceAt, MMIOBus.hasDeviceAt, ← List.isSome_find?, ← List.isSome_find?]
    generalize bus.mappings.find? (fun mapping => mapping.contains address) = found at hfind ⊢
    generalize bus'.mappings.find? (fun mapping => mapping.contains address) = found' at hfind ⊢
    cases hfind <;> rfl
  · rw [MMIOBus.read, MMIOBus.read, MMIOBus.findMapping, MMIOBus.findMapping]
    generalize bus.mappings.find? (fun mapping => mapping.contains address) = found at hfind ⊢
    generalize bus'.mappings.find? (fun mapping => mapping.contains address) = found' at hfind ⊢
    cases hfind with
    | none => exact Exec.Alike.throw _
    | @some mapping mapping' hmapping =>
      have hread : Exec.Alike R (mapping.device.read (address - mapping.base))
          (mapping'.device.read (address - mapping'.base)) := by
        rw [hmapping.base]
        exact hmapping.read _
      exact hread
  · rw [MMIOBus.write, MMIOBus.write, MMIOBus.findMapping, MMIOBus.findMapping]
    generalize bus.mappings.find? (fun mapping => mapping.contains address) = found at hfind ⊢
    generalize bus'.mappings.find? (fun mapping => mapping.contains address) = found' at hfind ⊢
    cases hfind with
    | none => exact Exec.Alike.throw _
    | @some mapping mapping' hmapping =>
      have hwrite : Exec.Alike R (mapping.device.write (address - mapping.base) value)
          (mapping'.device.write (address - mapping'.base) value) := by
        rw [hmapping.base]
        exact hmapping.write _ value
      exact hwrite

/-- Alike buses are alike as parts of larger worlds. -/
theorem forall₂_zoom {V V' : Type} {S : V → V' → Prop} {r : Ref W V} {r' : Ref W' V'}
    {bus : MMIOBus V} {bus' : MMIOBus V'}
    (h : List.Forall₂ (MMIOMapping.Alike S) bus.mappings bus'.mappings)
    (hget : ∀ w w', R w w' → S (r.get w) (r'.get w'))
    (hset : ∀ w w' v v', R w w' → S v v' → R (r.set v w) (r'.set v' w')) :
    List.Forall₂ (MMIOMapping.Alike R) (bus.zoom r).mappings (bus'.zoom r').mappings := by
  refine List.forall₂_map_left_iff.mpr (List.forall₂_map_right_iff.mpr ?_)
  refine h.imp fun mapping mapping' hmapping => ?_
  exact ⟨hmapping.base, hmapping.size, fun offset => (hmapping.read offset).zoom hget hset,
    fun offset value => (hmapping.write offset value).zoom hget hset⟩

/-- A bus is alike to itself over the same world. -/
theorem forall₂_alike_refl (bus : MMIOBus W) :
    List.Forall₂ (MMIOMapping.Alike Eq) bus.mappings bus.mappings :=
  List.forall₂_same.mpr fun _ _ =>
    ⟨rfl, rfl, fun _ => Exec.Alike.refl _, fun _ _ => Exec.Alike.refl _⟩

/-- Two pointers to equal objects. -/
structure Ref.Alike {τ : Type} (R : W → W' → Prop) (r : Ref W τ) (r' : Ref W' τ) : Prop where
  get : ∀ w w', R w w' → r.get w = r'.get w'
  set : ∀ w w' value, R w w' → R (r.set value w) (r'.set value w')

/-- What a host handler is given: the state and the world. -/
def Beside (R : W → W' → Prop) (p : CPUState × W) (p' : CPUState × W') : Prop :=
  p.1 = p'.1 ∧ R p.2 p'.2

/-- Two host handlers that no service tells apart, each with the bus that its CPU has. -/
structure SoftwareInterruptHandler.Alike (R : W → W' → Prop) (bus : Option (MMIOBus W))
    (bus' : Option (MMIOBus W')) (handler : SoftwareInterruptHandler W)
    (handler' : SoftwareInterruptHandler W') : Prop where
  handles : ∀ vector, handler.handles vector = handler'.handles vector
  handle : ∀ vector, Exec.Alike (Beside R) (handler.handle vector bus) (handler'.handle vector bus')

/-- Two CPUs with one program and devices that cannot be told apart. -/
structure Setup.Alike (R : W → W' → Prop) (m : Setup W) (m' : Setup W') : Prop where
  program : m.program = m'.program
  labels : m.labels = m'.labels
  hasBinaryProgram : m.hasBinaryProgram = m'.hasBinaryProgram
  binaryCodeBase : m.binaryCodeBase = m'.binaryCodeBase
  binaryCodeSize : m.binaryCodeSize = m'.binaryCodeSize
  hasUserCodeRange : m.hasUserCodeRange = m'.hasUserCodeRange
  userCodeBegin : m.userCodeBegin = m'.userCodeBegin
  userCodeEndExclusive : m.userCodeEndExclusive = m'.userCodeEndExclusive
  mmioBus : Option.Rel (MMIOBus.Alike R) m.mmioBus m'.mmioBus
  interruptController : Option.Rel (Ref.Alike R) m.interruptController m'.interruptController
  softwareInterruptHandler : Option.Rel (SoftwareInterruptHandler.Alike R m.mmioBus m'.mmioBus)
    m.softwareInterruptHandler m'.softwareInterruptHandler
  clockedDevices : List.Forall₂ (fun device device' => Exec.Alike R device.tick device'.tick)
    m.clockedDevices m'.clockedDevices

namespace CPU

/-- Two methods do the same to two CPUs. -/
abbrev AlikeOps (R : W → W' → Prop) (x : Op W α) (y : Op W' α) : Prop :=
  Exec.Alike (Core.Alike R) x y

/-- Both may use the members they read. -/
theorem alike_read {f : Core W → Op W α} {g : Core W' → Op W' α}
    (h : ∀ (core : Core Unit) w w', R w w' → AlikeOps R (f (core.beside w)) (g (core.beside w'))) :
    AlikeOps R (Exec.get >>= f) (Exec.get >>= g) := by
  refine .read fun s t hst => ?_
  obtain ⟨core, w, w', rfl, rfl, hworld⟩ := hst.exists_beside
  exact h core w w' hworld

/-- A change of the architectural state does not touch the world. -/
theorem alike_modifyState (f : CPUState → CPUState) :
    AlikeOps R (modifyState f : Op W Unit) (modifyState f) :=
  .modify fun _ _ h => { h with state := congrArg f h.state }

theorem alike_setRegister (reg : RegisterName) (value : Word) :
    AlikeOps R (setRegister reg value : Op W Unit) (setRegister reg value) := alike_modifyState _

theorem alike_modifyFlags (f : Flags → Flags) :
    AlikeOps R (modifyFlags f : Op W Unit) (modifyFlags f) := alike_modifyState _

theorem alike_setPc (address : ℕ) : AlikeOps R (setPc address : Op W Unit) (setPc address) :=
  alike_modifyState _

theorem alike_advance (size : ℕ) :
    AlikeOps R (advanceUnlessHalted size : Op W Unit) (advanceUnlessHalted size) := alike_modifyState _

/-! ## Memory and stacks -/

theorem alike_readMemory (address : ℕ) :
    AlikeOps R (readMemory address : Op W Word) (readMemory address) :=
  alike_read fun core _ _ _ => .lift (core.state.memory.read address)

/-- Writing a word of RAM depends on no world. -/
theorem alike_writeMemory (address : ℕ) (value : Word) :
    AlikeOps R (writeMemory address value : Op W Unit) (writeMemory address value) :=
  alike_read fun core _ _ _ => (Alike.lift (core.state.memory.write address value)).bind
    fun _ => alike_modifyState _

/-- The check of a data address depends on no world. -/
theorem alike_requireDataMemoryAccess (address : ℕ) (operation : Str) :
    AlikeOps R (requireDataMemoryAccess address operation : Op W Unit)
      (requireDataMemoryAccess address operation) :=
  alike_read fun core _ _ _ => .require (!core.state.isUserMode || MemoryMap.isUserDataRange address 8) _

/-- The check for free stack slots depends on no world. -/
theorem alike_requireStackPushSlots (slotCount : ℕ) :
    AlikeOps R (requireStackPushSlots slotCount : Op W Unit) (requireStackPushSlots slotCount) :=
  alike_read fun core _ _ _ => .lift (requireStackPushSlotsAt core.state.sp (activeStackBase core)
    (activeStackEndExclusive core) slotCount)

/-- The check for used stack slots depends on no world. -/
theorem alike_requireStackPopSlots (slotCount : ℕ) :
    AlikeOps R (requireStackPopSlots slotCount : Op W Unit) (requireStackPopSlots slotCount) :=
  alike_read fun core _ _ _ => .lift (requireStackPopSlotsAt core.state.sp (activeStackBase core)
    (activeStackEndExclusive core) slotCount)

/-- Moving the stack pointer depends on no world. -/
theorem alike_setStackPointer (sp : ℕ) :
    AlikeOps R (setStackPointer sp : Op W Unit) (setStackPointer sp) := by
  refine .modify fun s t h => { h with state := ?_, kernelStackPointer := ?_ }
  · dsimp only
    rw [h.state]
  · dsimp only
    rw [h.usingKernelInterruptStack, h.kernelStackPointer]

/-- A push depends on no world. -/
theorem alike_pushValue (value : Word) :
    AlikeOps R (pushValue value : Op W Unit) (pushValue value) :=
  (alike_requireStackPushSlots 1).bind fun _ => alike_read fun _ _ _ _ =>
    (alike_writeMemory _ value).bind fun _ => alike_setStackPointer _

theorem alike_popValue : AlikeOps R (popValue : Op W Word) popValue :=
  (alike_requireStackPopSlots 1).bind fun _ => alike_read fun _ _ _ _ =>
    (alike_readMemory _).bind fun value => (alike_setStackPointer _).bind fun _ => .pure value

theorem alike_peekValue : AlikeOps R (peekValue : Op W Word) peekValue :=
  (alike_requireStackPopSlots 1).bind fun _ => alike_read fun _ _ _ _ => alike_readMemory _

/-! ## Interrupt frames -/

/-- The place of the next interrupt frame depends on no world. -/
theorem alike_interruptFrameBase : AlikeOps R (interruptFrameBase : Op W ℕ) interruptFrameBase := by
  refine alike_read fun core w w' _ => ?_
  by_cases huser : core.state.privilegeLevel = .user
  · have hleft : (core.beside w).state.privilegeLevel = .user := huser
    have hright : (core.beside w').state.privilegeLevel = .user := huser
    rw [if_pos hleft, if_pos hright]
    exact (Alike.lift (requireStackPointerInRange core.state.sp _ _)).bind fun _ =>
      (Alike.lift (requireStackPushSlotsAt core.kernelStackPointer _ _ _)).bind fun _ => .pure _
  · have hleft : ¬ (core.beside w).state.privilegeLevel = .user := huser
    have hright : ¬ (core.beside w').state.privilegeLevel = .user := huser
    rw [if_neg hleft, if_neg hright]
    exact (alike_requireStackPushSlots _).bind fun _ => .pure _

/-- Pushing an interrupt frame depends on no world. -/
theorem alike_pushInterruptFrame (returnAddress : ℕ) :
    AlikeOps R (pushInterruptFrame returnAddress : Op W Unit) (pushInterruptFrame returnAddress) := by
  refine alike_read fun core w w' _ => alike_interruptFrameBase.bind fun frameBase => ?_
  refine (alike_writeMemory _ _).bind fun _ => (alike_writeMemory _ _).bind fun _ =>
    (alike_writeMemory _ _).bind fun _ => (alike_writeMemory _ _).bind fun _ => ?_
  refine Alike.bind (.modify fun s t h => { h with state := ?_, usingKernelInterruptStack := ?_ })
    fun _ => alike_setStackPointer _
  · dsimp only
    rw [h.state]
  · dsimp only
    rw [h.usingKernelInterruptStack]
    rfl

/-! ## The program -/

section Setups

variable {m : Setup W} {m' : Setup W'}

/-- Alike setups have the same code section. -/
theorem Alike.isBinaryPcInCode (h : Setup.Alike R m m') (pc : ℕ) :
    isBinaryPcInCode m pc = isBinaryPcInCode m' pc := by
  obtain ⟨⟩ := m
  obtain ⟨⟩ := m'
  obtain ⟨rfl, rfl, rfl, rfl, rfl, rfl, rfl, rfl, -, -, -, -⟩ := h
  rfl

/-- Alike setups let the same addresses be executed. -/
theorem Alike.requireExecutionAddress (h : Setup.Alike R m m') (address : ℕ)
    (privilege : PrivilegeLevel) :
    requireExecutionAddress m address privilege = requireExecutionAddress m' address privilege := by
  obtain ⟨⟩ := m
  obtain ⟨⟩ := m'
  obtain ⟨rfl, rfl, rfl, rfl, rfl, rfl, rfl, rfl, -, -, -, -⟩ := h
  rfl

/-- The check of a jump target throws the same in alike setups. -/
theorem alike_requireExecutionAddress (h : Setup.Alike R m m') (address : ℕ)
    (privilege : PrivilegeLevel) : AlikeOps R (Exec.lift (requireExecutionAddress m address privilege))
      (Exec.lift (requireExecutionAddress m' address privilege)) := by
  rw [Alike.requireExecutionAddress h]
  exact .lift _

/-- A checked jump is alike in alike setups. -/
theorem alike_setPcForExecution (h : Setup.Alike R m m') (address : ℕ) :
    AlikeOps R (setPcForExecution m address) (setPcForExecution m' address) :=
  alike_read fun core _ _ _ => (alike_requireExecutionAddress h address core.state.privilegeLevel).bind
    fun _ => alike_setPc address

/-- The check of a restored stack pointer depends on no world. -/
theorem alike_requireRestoredStackPointer (restoredSp : ℕ) (restoredPrivilege : PrivilegeLevel) :
    AlikeOps R (requireRestoredStackPointer restoredSp restoredPrivilege : Op W Unit)
      (requireRestoredStackPointer restoredSp restoredPrivilege) := by
  refine alike_read fun core w w' _ => ?_
  cases restoredPrivilege with
  | user => exact .lift _
  | kernel =>
    cases hidle : core.usingKernelInterruptStack with
    | true =>
      have hleft : (core.beside w).usingKernelInterruptStack = true := hidle
      have hright : (core.beside w').usingKernelInterruptStack = true := hidle
      rw [hleft, hright]
      exact .lift _
    | false =>
      have hleft : (core.beside w).usingKernelInterruptStack = false := hidle
      have hright : (core.beside w').usingKernelInterruptStack = false := hidle
      rw [hleft, hright]
      exact .lift (requireStackPointerInRange restoredSp _ core.state.memory.size)

/-- The last assignments of an interrupt return to User mode. -/
theorem alike_leaveKernelStack (restoredSp frameBase : ℕ) :
    AlikeOps R (Exec.modify fun core : Core W => { core with
        state := { core.state with sp := restoredSp }
        kernelStackPointer :=
          if core.usingKernelInterruptStack then frameBase else core.kernelStackPointer
        usingKernelInterruptStack := false })
      (Exec.modify fun core : Core W' => { core with
        state := { core.state with sp := restoredSp }
        kernelStackPointer :=
          if core.usingKernelInterruptStack then frameBase else core.kernelStackPointer
        usingKernelInterruptStack := false }) := by
  refine .modify fun s t h => { h with
    state := ?_, kernelStackPointer := ?_, usingKernelInterruptStack := rfl }
  · dsimp only
    rw [h.state]
  · dsimp only
    rw [h.usingKernelInterruptStack, h.kernelStackPointer]

/-- A return from an interrupt is alike in alike setups. -/
theorem alike_restoreInterruptFrame (h : Setup.Alike R m m') (error : Str) (allowUserCodeEnd : Bool) :
    AlikeOps R (restoreInterruptFrame m error allowUserCodeEnd)
      (restoreInterruptFrame m' error allowUserCodeEnd) := by
  refine (alike_requireStackPopSlots _).bind fun _ => alike_read fun core w w' _ =>
    (alike_readMemory _).bind fun returnAddress => (alike_readMemory _).bind fun flags =>
    (alike_readMemory _).bind fun privilege => (alike_readMemory _).bind fun savedSp =>
    (Alike.lift (privilegeLevelFromRaw privilege)).bind fun restoredPrivilege =>
    (Alike.lift (checkedReturnAddress returnAddress error)).bind fun restoredPc =>
    (Alike.lift (checkedSize savedSp _)).bind fun restoredSp => ?_
  dsimp only
  rw [h.hasUserCodeRange, h.userCodeEndExclusive]
  have hrest : ∀ {x : Op W Unit} {y : Op W' Unit}, AlikeOps R x y →
      AlikeOps R (do
        requireRestoredStackPointer restoredSp restoredPrivilege
        modifyFlags fun old => restoreFlags old flags
        modifyState fun state => { state with privilegeLevel := restoredPrivilege, pc := restoredPc }
        x) (do
        requireRestoredStackPointer restoredSp restoredPrivilege
        modifyFlags fun old => restoreFlags old flags
        modifyState fun state => { state with privilegeLevel := restoredPrivilege, pc := restoredPc }
        y) := fun hlast =>
    (alike_requireRestoredStackPointer _ _).bind fun _ => (alike_modifyFlags _).bind fun _ =>
      (alike_modifyState _).bind fun _ => hlast
  split_ifs
  · exact (alike_requireExecutionAddress h _ _).bind fun _ => hrest (alike_leaveKernelStack _ _)
  · exact (alike_requireExecutionAddress h _ _).bind fun _ => hrest (alike_setStackPointer _)
  · exact hrest (alike_leaveKernelStack _ _)
  · exact hrest (alike_setStackPointer _)

/-! ## Devices -/

/-- Operations that are alike on the worlds are alike on the cores around them. -/
theorem alike_zoom_world {x : Exec Str W α} {y : Exec Str W' α} (h : Exec.Alike R x y) :
    AlikeOps R (Exec.zoom Core.worldRef x) (Exec.zoom Core.worldRef y) :=
  h.zoom (fun _ _ hst => hst.world) fun _ _ _ _ hst hworld => { hst with world := hworld }

/-- In alike setups an address is on no bus, or on two alike ones. -/
theorem busAt_alike (h : Setup.Alike R m m') (address : ℕ) :
    Option.Rel (MMIOBus.Alike R) (busAt m address) (busAt m' address) := by
  have hrel := h.mmioBus
  rw [busAt, busAt]
  generalize m.mmioBus = bus at hrel ⊢
  generalize m'.mmioBus = bus' at hrel ⊢
  cases hrel with
  | none => exact .none
  | some hbus =>
    rw [Option.filter_some, Option.filter_some, hbus.hasDeviceAt]
    split_ifs
    · exact .some hbus
    · exact .none

/-- A data read goes to RAM on both sides or to two alike devices. -/
theorem alike_readDataMemory (h : Setup.Alike R m m') (address : ℕ) :
    AlikeOps R (readDataMemory m address) (readDataMemory m' address) := by
  refine (alike_requireDataMemoryAccess address _).bind fun _ => ?_
  have hbus := busAt_alike h address
  generalize busAt m address = bus at hbus ⊢
  generalize busAt m' address = bus' at hbus ⊢
  cases hbus with
  | none => exact alike_readMemory address
  | some hbus => exact alike_zoom_world (hbus.read address)

/-- A data write goes to RAM on both sides or to two alike devices. -/
theorem alike_writeDataMemory (h : Setup.Alike R m m') (address : ℕ) (value : Word) :
    AlikeOps R (writeDataMemory m address value) (writeDataMemory m' address value) := by
  refine (alike_requireDataMemoryAccess address _).bind fun _ => ?_
  have hbus := busAt_alike h address
  generalize busAt m address = bus at hbus ⊢
  generalize busAt m' address = bus' at hbus ⊢
  cases hbus with
  | none => exact alike_writeMemory address value
  | some hbus => exact alike_zoom_world (hbus.write address value)

/-- Devices that tick alike one by one tick alike as a list. -/
theorem alike_tickDevices {devices : List (ClockedDevice W)} {devices' : List (ClockedDevice W')}
    (h : List.Forall₂ (fun device device' => Exec.Alike R device.tick device'.tick) devices devices') :
    AlikeOps R (tickDevices devices) (tickDevices devices') := by
  induction h with
  | nil => exact .pure ()
  | cons htick _ ih => exact (alike_zoom_world htick).bind fun _ => ih

/-! ## Interrupts -/

/-- Two CPUs take the same pending request, or none. -/
theorem alike_servicePending (h : Setup.Alike R m m') : AlikeOps R (servicePendingInterruptIfNeeded m)
    (servicePendingInterruptIfNeeded m') := by
  refine alike_read fun core w w' hworld => ?_
  have hrel := h.interruptController
  generalize m.interruptController = r at hrel ⊢
  generalize m'.interruptController = r' at hrel ⊢
  cases hrel with
  | none => exact .pure false
  | @some r r' hr =>
    have hget : r.get (core.beside w).world = r'.get (core.beside w').world := hr.get w w' hworld
    dsimp only
    generalize r.get (core.beside w).world = controller at hget ⊢
    subst hget
    generalize r'.get (core.beside w').world = controller
    cases hpending : controller.hasPending with
    | false => exact .pure false
    | true =>
      refine (Alike.lift controller.acknowledge).bind fun acknowledged => Alike.bind
        (.modify fun _ _ hst => { hst with world := hr.set _ _ acknowledged.2 hst.world }) fun _ =>
        (Alike.lift (acknowledged.2.vectorHandler acknowledged.1.vector)).bind fun handler => ?_
      -- The two engines differ only in how they check the handler.
      have henter : AlikeOps R (do
          pushInterruptFrame core.state.pc
          setRegister .R0 (Word.ofSize acknowledged.1.vector.toNat)
          setRegister .R1 acknowledged.1.payload
          setPc handler
          pure true : Op W Bool) (do
          pushInterruptFrame core.state.pc
          setRegister .R0 (Word.ofSize acknowledged.1.vector.toNat)
          setRegister .R1 acknowledged.1.payload
          setPc handler
          pure true) :=
        (alike_pushInterruptFrame _).bind fun _ => (alike_setRegister _ _).bind fun _ =>
          (alike_setRegister _ _).bind fun _ => (alike_setPc _).bind fun _ => .pure true
      rw [h.hasBinaryProgram]
      cases m'.hasBinaryProgram with
      | true =>
        rw [Alike.isBinaryPcInCode h]
        exact (Alike.require _ _).bind fun _ => henter
      | false =>
        rw [h.program]
        exact (Alike.require _ _).bind fun _ => henter

/-- Alike host handlers serve the same vectors alike. -/
theorem alike_serviceHost (h : Setup.Alike R m m') (vector : UInt8) (returnAddress : ℕ) :
    AlikeOps R (serviceHostSoftwareInterrupt m vector returnAddress)
      (serviceHostSoftwareInterrupt m' vector returnAddress) := by
  have hrel := h.softwareInterruptHandler
  rw [serviceHostSoftwareInterrupt, serviceHostSoftwareInterrupt]
  generalize m.softwareInterruptHandler = handler at hrel ⊢
  generalize m'.softwareInterruptHandler = handler' at hrel ⊢
  cases hrel with
  | none => exact .pure false
  | @some handler handler' hhandler =>
    dsimp only
    rw [hhandler.handles]
    split_ifs
    · exact .pure false
    -- The handler sees the state and the world, and nothing else of the CPU.
    · have hservice : AlikeOps R (Exec.zoom Core.stateWorldRef (handler.handle vector m.mmioBus))
          (Exec.zoom Core.stateWorldRef (handler'.handle vector m'.mmioBus)) :=
        (hhandler.handle vector).zoom (fun _ _ hst => ⟨hst.state, hst.world⟩)
          fun _ _ _ _ hst hpair => { hst with state := hpair.1, world := hpair.2 }
      refine (alike_pushInterruptFrame _).bind fun _ => (alike_setRegister _ _).bind fun _ =>
        (hservice.onError (alike_restoreInterruptFrame h _ _)).bind fun result =>
        (alike_restoreInterruptFrame h _ _).bind fun _ => Alike.bind
          (.modify fun _ _ hst => { hst with softwareInterruptObservation := rfl }) fun _ => ?_
      split_ifs
      · refine Alike.bind (.modify fun s t hst => { hst with
          state := ?_, processExitRequest := rfl }) fun _ => .pure true
        dsimp only
        rw [hst.state]
      · exact .pure true

/-- Two CPUs enter the same vector handler. -/
theorem alike_enterVectorHandler {r : Ref W InterruptController} {r' : Ref W' InterruptController}
    (h : Ref.Alike R r r') (vector : UInt8) (returnAddress : ℕ) (ok : ℕ → Bool) (error : Str) :
    AlikeOps R (enterVectorHandler r vector returnAddress ok error)
      (enterVectorHandler r' vector returnAddress ok error) := by
  refine alike_read fun core w w' hworld => ?_
  have hget : r.get (core.beside w).world = r'.get (core.beside w').world := h.get w w' hworld
  rw [hget]
  exact (Alike.lift _).bind fun handler => (Alike.require _ _).bind fun _ =>
    (alike_pushInterruptFrame _).bind fun _ => (alike_setRegister _ _).bind fun _ => alike_setPc _

/-- `EI` and `DI` are alike in alike setups. -/
theorem alike_setInterruptsEnabled (h : Setup.Alike R m m') (enabled : Bool) (missing : Str) :
    AlikeOps R (setInterruptsEnabled m enabled missing) (setInterruptsEnabled m' enabled missing) := by
  have hrel := h.interruptController
  rw [setInterruptsEnabled, setInterruptsEnabled]
  generalize m.interruptController = r at hrel ⊢
  generalize m'.interruptController = r' at hrel ⊢
  cases hrel with
  | none => exact .throw missing
  | some hr =>
    refine .modify fun s t hst => { hst with world := ?_ }
    dsimp only
    rw [hr.get _ _ hst.world]
    exact hr.set _ _ _ hst.world

/-! ## Instructions -/

variable {e : Engine} {i : InstructionView} {v : OperandView}

/-- Reading an operand is alike in alike setups. -/
theorem alike_readSource (h : Setup.Alike R m m') :
    AlikeOps R (readSource m v) (readSource m' v) := by
  refine alike_read fun core _ _ _ => (Alike.lift (v.source core.state.registers)).bind fun source => ?_
  cases source with
  | inl value => exact .pure value
  | inr address => exact alike_readDataMemory h address

theorem alike_readAddress : AlikeOps R (readAddress v : Op W ℕ) (readAddress v) :=
  alike_read fun core _ _ _ => .lift (v.address core.state.registers)

theorem alike_requireRegister : AlikeOps R (requireRegister v : Op W Unit) (requireRegister v) :=
  (Alike.lift v.register).bind fun _ => .pure ()

theorem alike_writeRegister (value : Word) :
    AlikeOps R (writeRegister v value : Op W Unit) (writeRegister v value) :=
  (Alike.lift v.register).bind fun reg => alike_setRegister reg value

theorem alike_finishMove (value : Word) :
    AlikeOps R (finishMove e v value : Op W Unit) (finishMove e v value) :=
  (alike_writeRegister value).bind fun _ => (alike_modifyFlags _).bind fun _ => alike_advance _

/-- The last part of an arithmetic instruction depends on no world. -/
theorem alike_finishALU (result : ALUResult) :
    AlikeOps R (finishALU e v result : Op W Unit) (finishALU e v result) :=
  (alike_writeRegister _).bind fun _ => (alike_modifyFlags _).bind fun _ => alike_advance _

/-- Arithmetic instructions are alike in alike setups. -/
theorem alike_performALU (h : Setup.Alike R m m') (op : Word → Word → Except Str ALUResult) :
    AlikeOps R (performALU op e m i) (performALU op e m' i) :=
  (Alike.lift _).bind fun _ => alike_requireRegister.bind fun _ => (alike_readSource h).bind fun lhs =>
    (alike_readSource h).bind fun rhs => (Alike.lift (op lhs rhs)).bind fun _ => alike_finishALU _

/-- Comparisons are alike in alike setups. -/
theorem alike_performComparison (h : Setup.Alike R m m') (op : Word → Word → ALUResult) :
    AlikeOps R (performComparison op e m i) (performComparison op e m' i) :=
  (Alike.lift _).bind fun _ => (alike_readSource h).bind fun _ => (alike_readSource h).bind fun _ =>
    (alike_modifyFlags _).bind fun _ => alike_advance _

theorem alike_performJump (h : Setup.Alike R m m') :
    AlikeOps R (performJump m v) (performJump m' v) :=
  (Alike.lift v.target).bind fun target => alike_setPcForExecution h target

/-- Conditional jumps are alike in alike setups. -/
theorem alike_performBranch (h : Setup.Alike R m m') (taken : Flags → Bool) :
    AlikeOps R (performBranch taken e m i) (performBranch taken e m' i) := by
  refine (Alike.lift i.oneOperand).bind fun _ => alike_read fun core w w' _ => ?_
  have hleft : (core.beside w).state.flags = core.state.flags := rfl
  have hright : (core.beside w').state.flags = core.state.flags := rfl
  rw [hleft, hright]
  cases taken core.state.flags with
  | true => exact alike_performJump h
  | false => exact alike_advance _

/-- Calls are alike in alike setups. -/
theorem alike_performCall (h : Setup.Alike R m m') :
    AlikeOps R (performCall e m i) (performCall e m' i) :=
  (Alike.lift i.oneOperand).bind fun _ => (Alike.lift i.dst.target).bind fun target =>
    alike_read fun core _ _ _ =>
      (alike_requireExecutionAddress h target core.state.privilegeLevel).bind fun _ =>
      (alike_requireExecutionAddress h _ core.state.privilegeLevel).bind fun _ =>
      (alike_pushValue _).bind fun _ => alike_setPc target

/-- Returns are alike in alike setups. -/
theorem alike_performRet (h : Setup.Alike R m m') :
    AlikeOps R (performRet e m i) (performRet e m' i) :=
  (Alike.lift i.noOperand).bind fun _ => alike_peekValue.bind fun _ =>
    (Alike.lift _).bind fun target => alike_read fun core _ _ _ =>
      (alike_requireExecutionAddress h target core.state.privilegeLevel).bind fun _ =>
      alike_popValue.bind fun _ => alike_setPc target

/-- Software interrupts are alike in alike setups. -/
theorem alike_performInt (h : Setup.Alike R m m') :
    AlikeOps R (performInt e m i) (performInt e m' i) := by
  refine (Alike.lift i.oneOperand).bind fun _ => ?_
  have hrel := h.interruptController
  generalize m.interruptController = r at hrel ⊢
  generalize m'.interruptController = r' at hrel ⊢
  cases hrel with
  | none => exact .throw _
  | some hr =>
    refine (alike_readSource h).bind fun value => (Alike.lift (interruptVector value)).bind
      fun vector => alike_read fun core w w' _ => (alike_serviceHost h vector _).bind fun serviced => ?_
    cases serviced with
    | true => exact .pure ()
    | false => exact alike_enterVectorHandler hr vector _ _ _

/-- The privilege check depends on no world. -/
theorem alike_requireInstructionPrivilege (opcode : Opcode) :
    AlikeOps R (requireInstructionPrivilege opcode : Op W Unit) (requireInstructionPrivilege opcode) := by
  refine alike_read fun core w w' _ => ?_
  have hleft : (core.beside w).state.isUserMode = core.state.isUserMode := rfl
  have hright : (core.beside w').state.isUserMode = core.state.isUserMode := rfl
  rw [hleft, hright]
  cases core.state.isUserMode with
  | false => exact .pure ()
  | true =>
    cases opcode with
    | HALT | IRET | EI | DI => exact .throw _
    | _ => exact .pure ()

/-- One instruction does the same to two CPUs. -/
theorem alike_perform [LongDouble] (h : Setup.Alike R m m') :
    AlikeOps R (perform e m i) (perform e m' i) := by
  unfold perform
  refine (alike_requireInstructionPrivilege i.opcode).bind fun _ => ?_
  -- The worlds enter by memory accesses, the controller and the handler only.
  cases i.opcode with
  | NOP => exact (Alike.lift i.noOperand).bind fun _ => alike_advance _
  | HALT => exact (Alike.lift i.noOperand).bind fun _ => alike_modifyState _
  | MOV =>
    exact (Alike.lift i.twoOperands).bind fun _ => alike_requireRegister.bind fun _ =>
      (alike_readSource h).bind fun value => alike_finishMove value
  | LOAD =>
    exact (Alike.lift i.twoOperands).bind fun _ => alike_requireRegister.bind fun _ =>
      alike_readAddress.bind fun address => (alike_readDataMemory h address).bind
        fun value => alike_finishMove value
  | STORE =>
    exact (Alike.lift i.twoOperands).bind fun _ => alike_readAddress.bind fun address =>
      (alike_readSource h).bind fun value => (alike_writeDataMemory h address value).bind fun _ =>
      (alike_modifyFlags _).bind fun _ => alike_advance _
  | ADD | SUB | MUL | DIV | AND | OR | XOR => exact alike_performALU h _
  | NOT =>
    exact (Alike.lift i.oneOperand).bind fun _ => alike_requireRegister.bind fun _ =>
      (alike_readSource h).bind fun _ => alike_finishALU _
  | CMP | TEST => exact alike_performComparison h _
  | JMP => exact (Alike.lift i.oneOperand).bind fun _ => alike_performJump h
  | JE | JNE | JG | JL => exact alike_performBranch h _
  | PUSH =>
    exact (Alike.lift i.oneOperand).bind fun _ => (alike_readSource h).bind fun value =>
      (alike_pushValue value).bind fun _ => alike_advance _
  | POP =>
    exact (Alike.lift i.oneOperand).bind fun _ => alike_requireRegister.bind fun _ =>
      alike_popValue.bind fun value => alike_finishMove value
  | CALL => exact alike_performCall h
  | RET => exact alike_performRet h
  | IRET => exact (Alike.lift i.noOperand).bind fun _ => alike_restoreInterruptFrame h _ _
  | EI | DI =>
    exact (Alike.lift i.noOperand).bind fun _ => (alike_setInterruptsEnabled h _ _).bind
      fun _ => alike_advance _
  | INT => exact alike_performInt h
  | Invalid => exact .throw _

/-! ## Steps -/

/-- The interpreted engine sees the same instruction in alike setups. -/
theorem view_alike (h : Setup.Alike R m m') (instruction : Instruction) :
    instruction.view m = instruction.view m' ∧ Engine.interpreted m = Engine.interpreted m' := by
  obtain ⟨⟩ := m
  obtain ⟨⟩ := m'
  obtain ⟨rfl, rfl, rfl, rfl, rfl, rfl, rfl, rfl, -, -, -, -⟩ := h
  exact ⟨rfl, rfl⟩

/-- The binary engine sees and records the same instruction in alike setups. -/
theorem binaryView_alike (h : Setup.Alike R m m') (instruction : DecodedInstruction) :
    instruction.view m = instruction.view m' ∧ Engine.binary m = Engine.binary m'
      ∧ traceInstruction m instruction = traceInstruction m' instruction := by
  obtain ⟨⟩ := m
  obtain ⟨⟩ := m'
  obtain ⟨rfl, rfl, rfl, rfl, rfl, rfl, rfl, rfl, -, -, -, -⟩ := h
  exact ⟨rfl, rfl, rfl⟩

/-- An interpreted instruction is alike in alike setups. -/
theorem alike_execute [LongDouble] (h : Setup.Alike R m m') (instruction : Instruction) :
    AlikeOps R (execute m instruction) (execute m' instruction) := by
  obtain ⟨hview, hengine⟩ := view_alike h instruction
  rw [execute_eq_perform, execute_eq_perform, hview, hengine]
  exact alike_perform h

/-- A decoded instruction is alike in alike setups. -/
theorem alike_executeBinaryInstruction [LongDouble] (h : Setup.Alike R m m')
    (instruction : DecodedInstruction) :
    AlikeOps R (executeBinaryInstruction m instruction) (executeBinaryInstruction m' instruction) := by
  obtain ⟨hview, hengine, -⟩ := binaryView_alike h instruction
  rw [executeBinaryInstruction_eq_perform, executeBinaryInstruction_eq_perform, hview, hengine]
  exact alike_perform h

/-- The check of PC before a fetch is alike in alike setups. -/
theorem alike_requireCurrentPcExecutable (h : Setup.Alike R m m') :
    AlikeOps R (requireCurrentPcExecutable m) (requireCurrentPcExecutable m') :=
  alike_read fun core _ _ _ =>
    alike_requireExecutionAddress h core.state.pc core.state.privilegeLevel

/-- The binary engine fetches the same instruction, or throws the same. -/
theorem alike_fetchBinary (h : Setup.Alike R m m') : AlikeOps R (fetchBinary m) (fetchBinary m') := by
  refine alike_read fun core w w' _ => ?_
  rw [Alike.isBinaryPcInCode h]
  exact (Alike.require _ _).bind fun _ =>
    (Alike.lift (core.state.memory.readBytes core.state.pc kInstructionSize)).bind fun _ => .lift _

/-- The interpreted engine fetches the same instruction, or throws the same. -/
theorem alike_fetchProgram (h : Setup.Alike R m m') : AlikeOps R (fetchProgram m) (fetchProgram m') := by
  refine alike_read fun core w w' _ => ?_
  have hleft : (core.beside w).state.pc = core.state.pc := rfl
  have hright : (core.beside w').state.pc = core.state.pc := rfl
  rw [h.program, hleft, hright]
  cases m'.program[core.state.pc]? with
  | some instruction => exact .pure instruction
  | none => exact .throw _

/-- The clock ticks on both sides or on neither. -/
theorem alike_tickUnlessStopped (h : Setup.Alike R m m') :
    AlikeOps R (tickUnlessStopped m) (tickUnlessStopped m') := by
  refine alike_read fun core w w' _ => ?_
  have hleft : (core.beside w).state = core.state := rfl
  have hright : (core.beside w').state = core.state := rfl
  rw [hleft, hright]
  split_ifs
  · exact alike_tickDevices h.clockedDevices
  · exact .pure ()

end Setups

/-- Two CPUs that differ only in their worlds, with devices that cannot be told apart. -/
structure Alike (R : W → W' → Prop) (cpu : CPU W) (cpu' : CPU W') : Prop where
  setup : Setup.Alike R cpu.setup cpu'.setup
  core : Core.Alike R cpu.core cpu'.core
  trace : cpu.trace = cpu'.trace

section Steps

variable {cpu : CPU W} {cpu' : CPU W'}

/-- The end of a step, with its record in the trace, keeps two CPUs alike. -/
theorem Alike.finishStep (h : CPU.Alike R cpu cpu') (before : CPUState) (instruction : Instruction)
    (result : Except Str Unit) {s : Core W} {t : Core W'} (hst : Core.Alike R s t) :
    CPU.Alike R (cpu.finishStep before instruction (result, s))
      (cpu'.finishStep before instruction (result, t)) := by
  cases result with
  | ok u =>
    refine ⟨h.setup, hst, ?_⟩
    simp only [CPU.finishStep, h.trace, hst.state]
  | error message =>
    have hcore : Core.Alike R (setRuntimeError message s) (setRuntimeError message t) :=
      { hst with state := congrArg (CPUState.setError · message) hst.state }
    refine ⟨h.setup, hcore, ?_⟩
    simp only [CPU.finishStep, h.trace, hcore.state]

/-- One instruction keeps two CPUs alike. -/
theorem Alike.stepInstruction [LongDouble] (h : CPU.Alike R cpu cpu') {s : Core W} {t : Core W'}
    (hst : Core.Alike R s t) : CPU.Alike R (cpu.stepInstruction s) (cpu'.stepInstruction t) := by
  -- Fetching reads the program and the memory, which are alike.
  have hfetch : AlikeOps R (do
      requireCurrentPcExecutable cpu.setup
      if cpu.setup.hasBinaryProgram then traceInstructionForCurrentBinaryPc cpu.setup
      else fetchProgram cpu.setup : Op W Instruction) (do
      requireCurrentPcExecutable cpu'.setup
      if cpu'.setup.hasBinaryProgram then traceInstructionForCurrentBinaryPc cpu'.setup
      else fetchProgram cpu'.setup) := by
    refine (alike_requireCurrentPcExecutable h.setup).bind fun _ => ?_
    rw [h.setup.hasBinaryProgram]
    split_ifs
    · refine (alike_fetchBinary h.setup).bind fun decoded => ?_
      rw [(binaryView_alike h.setup decoded).2.2]
      exact .lift _
    · exact alike_fetchProgram h.setup
  obtain ⟨result, s', t', hs, ht, h'⟩ := hfetch.exists_outcome hst
  simp only [CPU.stepInstruction, hs, ht]
  cases result with
  | error message => exact hst.state ▸ h.finishStep _ _ _ h'
  | ok instruction =>
    have hbody : AlikeOps R (do
        if cpu.setup.hasBinaryProgram then stepBinary cpu.setup else execute cpu.setup instruction
        tickUnlessStopped cpu.setup : Op W Unit) (do
        if cpu'.setup.hasBinaryProgram then stepBinary cpu'.setup else execute cpu'.setup instruction
        tickUnlessStopped cpu'.setup) := by
      rw [h.setup.hasBinaryProgram]
      split_ifs
      · exact Alike.bind ((alike_fetchBinary h.setup).bind fun decoded =>
          alike_executeBinaryInstruction h.setup decoded) fun _ => alike_tickUnlessStopped h.setup
      · exact (alike_execute h.setup instruction).bind fun _ => alike_tickUnlessStopped h.setup
    obtain ⟨result, s'', t'', hs', ht', h''⟩ := hbody.exists_outcome h'
    dsimp only
    rw [hs', ht', hst.state]
    exact h.finishStep _ _ _ h''

/-- A step cannot tell the worlds apart. -/
theorem Alike.step [LongDouble] (h : CPU.Alike R cpu cpu') : CPU.Alike R cpu.step cpu'.step := by
  have hstopped : (cpu.core.state.halted = true ∨ cpu.core.state.hasError = true)
      ↔ (cpu'.core.state.halted = true ∨ cpu'.core.state.hasError = true) := by rw [h.core.state]
  by_cases hrun : cpu.core.state.halted = true ∨ cpu.core.state.hasError = true
  · rw [step_of_stopped hrun, step_of_stopped (hstopped.mp hrun)]
    exact h
  · have hstart : Core.Alike R { cpu.core with softwareInterruptObservation := none }
        { cpu'.core with softwareInterruptObservation := none } :=
      { h.core with softwareInterruptObservation := rfl }
    obtain ⟨result, s, t, hs, ht, h'⟩ := (alike_servicePending h.setup).exists_outcome hstart
    simp only [CPU.step, if_neg hrun, if_neg (mt hstopped.mpr hrun), hs, ht]
    rcases result with message | _ | _
    · dsimp only
      rw [h.core.state]
      exact h.finishStep _ _ _ h'
    · exact h.stepInstruction h'
    · dsimp only
      rw [h.core.state, h'.state]
      exact h.finishStep _ _ _ h'

/-- Neither can any number of steps. -/
theorem Alike.steps [LongDouble] (h : CPU.Alike R cpu cpu') (n : ℕ) :
    CPU.Alike R (steps n cpu) (CPU.steps n cpu') := by
  induction n generalizing cpu cpu' with
  | zero => exact h
  | succ n ih => exact ih h.step

end Steps

end CPU

end ZeroCpu
