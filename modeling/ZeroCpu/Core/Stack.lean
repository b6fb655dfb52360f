import ZeroCpu.Core.Cpu

/-!
# Stack operations as guarded updates

The stack methods check, touch memory and move SP in several steps, any of which may throw. Each of
them is one check on the state followed by one update: a throw leaves the CPU as it was.
-/

namespace ZeroCpu

open Library MemoryMap

variable {W : Type}

namespace Core

/-- The core with `value` stored at `address`. -/
def store (core : Core W) (address : ℕ) (value : Word) : Core W :=
  core.updateState fun state =>
    { state with memory := state.memory.splice address (leBytes 8 value) }

/-- The core with its stack pointer moved to `sp`. -/
def moveSp (core : Core W) (sp : ℕ) : Core W :=
  { core with
    state := { core.state with sp := sp }
    kernelStackPointer := if core.usingKernelInterruptStack then sp else core.kernelStackPointer }

end Core

namespace CPU

/-! ## Ranges -/

/-- A stack pointer is accepted when it is aligned and inside its stack. -/
theorem requireStackPointerInRange_eq_ok {sp base stop : ℕ} {u : Unit} :
    requireStackPointerInRange sp base stop = .ok u
      ↔ base ≤ sp ∧ (sp - base) % 8 = 0 ∧ sp ≤ stop := by
  simp only [requireStackPointerInRange, bind_eq_ok, reject_eq_ok, exists_const]
  simp only [kStackSlotSize]
  omega

/-- Slots can be pushed when they end inside the stack. -/
theorem requireStackPushSlotsAt_eq_ok {sp base stop count : ℕ} {u : Unit} :
    requireStackPushSlotsAt sp base stop count = .ok u
      ↔ (base ≤ sp ∧ (sp - base) % 8 = 0 ∧ sp ≤ stop) ∧ sp + 8 * count ≤ stop := by
  simp only [requireStackPushSlotsAt, bind_eq_ok, reject_eq_ok, exists_const,
    requireStackPointerInRange_eq_ok]
  simp only [kStackSlotSize]
  omega

/-- Slots can be popped when they start inside the stack. -/
theorem requireStackPopSlotsAt_eq_ok {sp base stop count : ℕ} {u : Unit} :
    requireStackPopSlotsAt sp base stop count = .ok u
      ↔ (base ≤ sp ∧ (sp - base) % 8 = 0 ∧ sp ≤ stop) ∧ base + 8 * count ≤ sp := by
  simp only [requireStackPopSlotsAt, bind_eq_ok, reject_eq_ok, exists_const,
    requireStackPointerInRange_eq_ok]
  simp only [kStackSlotSize]
  omega

/-- In User mode the active stack is the User stack. -/
theorem activeStack_user {core : Core W} (h : core.state.privilegeLevel = .user) :
    activeStackBase core = 2048 ∧ activeStackEndExclusive core = 4000 := by
  simp [activeStackBase, activeStackEndExclusive, CPUState.isUserMode, h, kUserStackBase,
    kUserStackEndExclusive, kDefaultStackBase, kBioOSStackBase]

/-! ## Words in memory -/

theorem readMemory_apply (address : ℕ) (core : Core W) :
    readMemory address core = (core.state.memory.read address, core) := rfl

/-- Writing RAM stores a word, or throws. -/
theorem writeMemory_apply (address : ℕ) (value : Word) (core : Core W) :
    writeMemory address value core = match core.state.memory.checkRange address 8 with
      | .ok _ => (.ok (), core.store address value)
      | .error e => (.error e, core) := by
  simp only [writeMemory, Exec.bind_apply, Exec.get_apply, Exec.lift_apply, Memory.write,
    Memory.writeU64]
  rcases core.state.memory.checkRange address 8 with e | u <;> rfl

/-! ## Push, pop and peek -/

/-- What `pushValue` checks. -/
def checkPush (core : Core W) : Except Str Unit := do
  requireStackPushSlotsAt core.state.sp (activeStackBase core) (activeStackEndExclusive core) 1
  core.state.memory.checkRange core.state.sp 8

/-- The word `popValue` returns, unless one of its checks fails. -/
def topValue (core : Core W) : Except Str Word := do
  requireStackPopSlotsAt core.state.sp (activeStackBase core) (activeStackEndExclusive core) 1
  core.state.memory.read (core.state.sp - 8)

/-- A push as one step. -/
theorem pushValue_apply (value : Word) (core : Core W) :
    pushValue value core = match checkPush core with
      | .ok _ => (.ok (), (core.store core.state.sp value).moveSp (core.state.sp + 8))
      | .error e => (.error e, core) := by
  unfold pushValue checkPush
  simp only [requireStackPushSlots, Exec.bind_apply, Exec.get_apply, Exec.lift_apply]
  rcases requireStackPushSlotsAt core.state.sp (activeStackBase core)
    (activeStackEndExclusive core) 1 with e | u
  · rfl
  · simp only [writeMemory_apply, ok_bind]
    rcases core.state.memory.checkRange core.state.sp 8 with e | u <;> rfl

/-- A pop as one step. -/
theorem popValue_apply (core : Core W) :
    popValue core = match topValue core with
      | .ok value => (.ok value, core.moveSp (core.state.sp - 8))
      | .error e => (.error e, core) := by
  unfold popValue topValue
  simp only [requireStackPopSlots, Exec.bind_apply, Exec.get_apply, Exec.lift_apply,
    readMemory_apply]
  rcases requireStackPopSlotsAt core.state.sp (activeStackBase core)
    (activeStackEndExclusive core) 1 with e | u
  · rfl
  · simp only [ok_bind, kStackSlotSize]
    rcases core.state.memory.read (core.state.sp - 8) with e | value <;> rfl

/-- Reading the top leaves the core alone. -/
theorem peekValue_apply (core : Core W) : peekValue core = (topValue core, core) := by
  unfold peekValue topValue
  simp only [requireStackPopSlots, Exec.bind_apply, Exec.get_apply, Exec.lift_apply,
    readMemory_apply]
  rcases requireStackPopSlotsAt core.state.sp (activeStackBase core)
    (activeStackEndExclusive core) 1 with e | u <;> rfl

/-- When there is room for a push. -/
theorem checkPush_eq_ok {core : Core W} :
    checkPush core = .ok ()
      ↔ (activeStackBase core ≤ core.state.sp
          ∧ (core.state.sp - activeStackBase core) % 8 = 0
          ∧ core.state.sp + 8 ≤ activeStackEndExclusive core)
        ∧ core.state.sp + 8 ≤ core.state.memory.size := by
  simp only [checkPush, bind_eq_ok, requireStackPushSlotsAt_eq_ok, Memory.checkRange_eq_ok,
    exists_const]
  omega

/-- When there is a word to pop, and which. -/
theorem topValue_eq_ok {core : Core W} {value : Word} :
    topValue core = .ok value
      ↔ (activeStackBase core + 8 ≤ core.state.sp
          ∧ (core.state.sp - activeStackBase core) % 8 = 0
          ∧ core.state.sp ≤ activeStackEndExclusive core)
        ∧ core.state.sp ≤ core.state.memory.size
        ∧ value = leWord 64 (core.state.memory.slice (core.state.sp - 8) 8) := by
  simp only [topValue, bind_eq_ok, requireStackPopSlotsAt_eq_ok, Memory.read_eq_ok, exists_const]
  constructor
  · rintro ⟨⟨⟨h1, h2, h3⟩, h4⟩, h5, rfl⟩
    exact ⟨⟨by omega, h2, h3⟩, by omega, rfl⟩
  · rintro ⟨⟨h1, h2, h3⟩, h4, rfl⟩
    exact ⟨⟨⟨by omega, h2, h3⟩, by omega⟩, by omega, rfl⟩

end CPU

end ZeroCpu
