import ZeroCpu.Core.Closed
import ZeroCpu.Core.Conformance
import ZeroCpu.Core.Faults

/-!
# Interrupt nesting

Reference: `src/core/CPU.cpp`, `pushInterruptFrame`, `restoreInterruptFrame` and their callers.

An interrupt entry saves PC, FLAGS, privilege and SP in a frame on one of three stacks. The Kernel
stack pointer and the flag that says whether it is in use are not saved: they are right after the
return only because the code between keeps them in step with SP. `SameLevel` is that invariant, kept
by every instruction that is not itself an entry or a return, and by every entry with its return.
-/

namespace ZeroCpu

open Library Exec

variable {W : Type}

/-- The Kernel stack pointer mirrors SP exactly while the Kernel interrupt stack is in use, and User
code never runs on it. -/
structure Core.Consistent (s : Core W) : Prop where
  user : s.state.privilegeLevel = .user → s.usingKernelInterruptStack = false
  shadow : s.usingKernelInterruptStack = true → s.kernelStackPointer = s.state.sp

/-- `core` is as deep in interrupt handlers as `s`. -/
structure SameLevel (s core : Core W) : Prop where
  privilege : core.state.privilegeLevel = s.state.privilegeLevel
  onKernelStack : core.usingKernelInterruptStack = s.usingKernelInterruptStack
  shadow : s.usingKernelInterruptStack = true → core.kernelStackPointer = core.state.sp
  idle : s.usingKernelInterruptStack = false → core.kernelStackPointer = s.kernelStackPointer
  size : core.state.memory.size = s.state.memory.size

namespace SameLevel

variable {s t core : Core W}

theorem refl (h : s.Consistent) : SameLevel s s := ⟨rfl, rfl, h.shadow, fun _ => rfl, rfl⟩

/-- Being on one level is transitive. -/
theorem trans (h : SameLevel s t) (h' : SameLevel t core) : SameLevel s core where
  privilege := h'.privilege.trans h.privilege
  onKernelStack := h'.onKernelStack.trans h.onKernelStack
  shadow hs := h'.shadow (h.onKernelStack.trans hs)
  idle hs := (h'.idle (h.onKernelStack.trans hs)).trans (h.idle hs)
  size := h'.size.trans h.size

theorem consistent (h : SameLevel s core) (hs : s.Consistent) : core.Consistent where
  user hu := h.onKernelStack.trans (hs.user (h.privilege.symm.trans hu))
  shadow hk := h.shadow (h.onKernelStack.symm.trans hk)

/-- Moving the stack pointer stays on the level. -/
theorem moveSp (h : SameLevel s core) (sp : ℕ) : SameLevel s (core.moveSp sp) where
  privilege := h.privilege
  onKernelStack := h.onKernelStack
  shadow hs := by simp only [Core.moveSp, h.onKernelStack, hs, if_true]
  idle hs := by simp only [Core.moveSp, h.onKernelStack, hs, Bool.false_eq_true, if_false, h.idle hs]
  size := h.size

/-- Storing a word stays on the level. -/
theorem store (h : SameLevel s core) {address : ℕ} (hfit : address + 8 ≤ core.state.memory.size)
    (value : Word) : SameLevel s (core.store address value) where
  privilege := h.privilege
  onKernelStack := h.onKernelStack
  shadow := h.shadow
  idle := h.idle
  size := by
    refine (Memory.size_splice ?_).trans h.size
    rw [length_leBytes]
    exact hfit

end SameLevel

/-- An instruction that is neither an entry nor a return stays at its level. -/
theorem SameLevel.closed (s : Core W) : Core.Closed (SameLevel s) where
  assign h hstate :=
    { privilege := hstate.privilegeLevel.trans h.privilege
      onKernelStack := h.onKernelStack
      shadow := fun hs => (h.shadow hs).trans hstate.sp.symm
      idle := h.idle
      size := (congrArg Memory.size hstate.memory).trans h.size }
  world _ h := { h with }
  moveSp sp h := h.moveSp sp
  store value hfit h := h.store hfit value

/-! ## Frames -/

open Reference (Frame)

section Words

variable {mem : Memory} {a b : ℕ}

/-- A stored word leaves the size alone. -/
theorem size_spliceWord (w : Word) (ha : a + 8 ≤ mem.size) :
    (mem.splice a (leBytes 8 w)).size = mem.size := by
  refine Memory.size_splice ?_
  rw [length_leBytes]
  exact ha

/-- A stored word is read back. -/
theorem word_spliceWord (w : Word) (ha : a + 8 ≤ mem.size) :
    leWord 64 ((mem.splice a (leBytes 8 w)).slice a 8) = w := by
  have hfit : a + (leBytes 8 w).length ≤ mem.size := by
    rw [length_leBytes]
    exact ha
  have hslice := Memory.slice_splice_self hfit
  rw [length_leBytes] at hslice
  rw [hslice]
  exact leWord_leBytes (n := 8) w

theorem slice_spliceWord_below (w : Word) (ha : a + 8 ≤ mem.size) (hb : b + 8 ≤ a) :
    (mem.splice a (leBytes 8 w)).slice b 8 = mem.slice b 8 :=
  Memory.slice_splice_of_disjoint (by rw [length_leBytes]; exact ha) (by omega) (.inl hb)

end Words

/-- No slot of a frame changes the size of memory. -/
theorem Reference.Frame.size_slots (frame : Frame) {memory : Memory} {base : ℕ}
    (hfit : base + 32 ≤ memory.size) :
    (memory.splice base (leBytes 8 frame.returnAddress)).size = memory.size
      ∧ ((memory.splice base (leBytes 8 frame.returnAddress)).splice (base + 8)
        (leBytes 8 frame.flags)).size = memory.size
      ∧ (((memory.splice base (leBytes 8 frame.returnAddress)).splice (base + 8)
        (leBytes 8 frame.flags)).splice (base + 16) (leBytes 8 frame.privilege)).size = memory.size
      ∧ (frame.write memory base).size = memory.size := by
  have hword : base + 8 ≤ memory.size := by omega
  have h1 := size_spliceWord frame.returnAddress hword
  have h2 := (size_spliceWord (a := base + 8) frame.flags (by rw [h1]; omega)).trans h1
  have h3 := (size_spliceWord (a := base + 16) frame.privilege (by rw [h2]; omega)).trans h2
  have h4 := (size_spliceWord (a := base + 24) frame.sp (by rw [h3]; omega)).trans h3
  exact ⟨h1, h2, h3, h4⟩

/-- A frame reads back as it was written. -/
theorem Reference.Frame.read_write (frame : Frame) {memory : Memory} {base : ℕ}
    (hfit : base + 32 ≤ memory.size) : Frame.read (frame.write memory base) base = frame := by
  obtain ⟨h1, h2, h3, -⟩ := frame.size_slots hfit
  obtain ⟨pc, flags, privilege, sp⟩ := frame
  simp only at h1 h2 h3
  simp only [Frame.read, Frame.write, Frame.mk.injEq]
  refine ⟨?_, ?_, ?_, word_spliceWord sp (by omega)⟩
  · rw [slice_spliceWord_below _ (by omega) (by omega), slice_spliceWord_below _ (by omega) (by omega),
      slice_spliceWord_below _ (by omega) (by omega), word_spliceWord _ (by omega)]
  · rw [slice_spliceWord_below _ (by omega) (by omega), slice_spliceWord_below _ (by omega) (by omega),
      word_spliceWord _ (by omega)]
  · rw [slice_spliceWord_below _ (by omega) (by omega), word_spliceWord _ (by omega)]

/-- A frame reads the same from memories that agree on its bytes. -/
theorem Reference.Frame.read_congr {memory memory' : Memory} {base : ℕ}
    (hfit : base + 32 ≤ memory.size) (hfit' : base + 32 ≤ memory'.size)
    (h : ∀ a, base ≤ a → a < base + 32 → memory.byteAt a = memory'.byteAt a) :
    Frame.read memory base = Frame.read memory' base := by
  have hslot : ∀ k, k + 8 ≤ 32 → memory.slice (base + k) 8 = memory'.slice (base + k) 8 :=
    fun k hk => Memory.slice_congr (by omega) (by omega) fun a h1 h2 => h a (by omega) (by omega)
  have h0 := hslot 0 (by omega)
  rw [Nat.add_zero] at h0
  simp only [Frame.read, h0, hslot 8 (by omega), hslot 16 (by omega), hslot 24 (by omega)]

/-! ## Entry and return -/

/-- A size goes through a word unless it has the sign bit. -/
theorem CPU.checkedSize_ofSize {n k : ℕ} {error : Str} (hn : n < 2 ^ 64) :
    checkedSize (Word.ofSize n) error = .ok k ↔ n < 2 ^ 63 ∧ k = n := by
  have hnat : (Word.ofSize n).toNat = n := by
    rw [Word.ofSize, BitVec.toNat_ofNat, Nat.mod_eq_of_lt hn]
  rw [checkedSize_eq_ok_iff, BitVec.toInt_eq_toNat_cond, hnat]
  split_ifs <;> omega

/-- The four flags survive a frame. -/
theorem restoreFlags_packFlags (before flags : Flags) :
    (restoreFlags before (packFlags flags)).zero = flags.zero
      ∧ (restoreFlags before (packFlags flags)).sign = flags.sign
      ∧ (restoreFlags before (packFlags flags)).carry = flags.carry
      ∧ (restoreFlags before (packFlags flags)).overflow = flags.overflow := by
  have hbits : ((packFlags flags &&& 1#64 <<< 0) != 0) = flags.zero
      ∧ ((packFlags flags &&& 1#64 <<< 1) != 0) = flags.sign
      ∧ ((packFlags flags &&& 1#64 <<< 2) != 0) = flags.carry
      ∧ ((packFlags flags &&& 1#64 <<< 3) != 0) = flags.overflow := by
    unfold packFlags
    cases flags.zero <;> cases flags.sign <;> cases flags.carry <;> cases flags.overflow <;> decide
  obtain ⟨hz, hs, hc, ho⟩ := hbits
  have hdistinct : Flags.ZF < 32 ∧ Flags.SF < 32 ∧ Flags.CF < 32 ∧ Flags.OF < 32 := by decide
  obtain ⟨hZF, hSF, hCF, hOF⟩ := hdistinct
  simp only [restoreFlags, hz, hs, hc, ho, Flags.zero, Flags.sign, Flags.carry, Flags.overflow,
    Flags.setZero, Flags.setSign, Flags.setCarry, Flags.setOverflow,
    Flags.test_set _ _ hZF hZF, Flags.test_set _ _ hZF hSF, Flags.test_set _ _ hZF hCF,
    Flags.test_set _ _ hZF hOF, Flags.test_set _ _ hSF hSF, Flags.test_set _ _ hSF hCF,
    Flags.test_set _ _ hSF hOF, Flags.test_set _ _ hCF hCF, Flags.test_set _ _ hCF hOF,
    Flags.test_set _ _ hOF hOF]
  exact ⟨rfl, rfl, rfl, rfl⟩

namespace Core

/-- Where an entry from `s` puts its frame. -/
def frameBase (s : Core W) : ℕ :=
  if s.state.privilegeLevel = .user then s.kernelStackPointer else s.state.sp

/-- The frame an entry from `s` saves. -/
def savedFrame (s : Core W) (returnPc : ℕ) : Frame where
  returnAddress := Word.ofSize returnPc
  flags := packFlags s.state.flags
  privilege := privilegeLevelToRaw s.state.privilegeLevel
  sp := Word.ofSize s.state.sp

end Core

/-- `core` is the state in which the handler of an interrupt of `s` starts. -/
structure Entered (s : Core W) (returnPc : ℕ) (core : Core W) : Prop where
  privilege : core.state.privilegeLevel = .kernel
  sp : core.state.sp = s.frameBase + 32
  onKernelStack : core.usingKernelInterruptStack
    = (s.state.isUserMode || s.usingKernelInterruptStack)
  shadow : core.usingKernelInterruptStack = true → core.kernelStackPointer = core.state.sp
  idle : core.usingKernelInterruptStack = false → core.kernelStackPointer = s.kernelStackPointer
  frame : Frame.read core.state.memory s.frameBase = s.savedFrame returnPc
  size : core.state.memory.size = s.state.memory.size
  inside : Reference.slotsInside (Reference.stackRange core) s.frameBase 4
  saved_sp : CPU.requireStackPointerInRange s.state.sp (CPU.activeStackBase s)
    (CPU.activeStackEndExclusive s) = .ok ()

/-- What an interrupt return brings back of the interrupted state `s`. -/
structure Restored (s : Core W) (returnPc : ℕ) (core : Core W) : Prop where
  pc : core.state.pc = returnPc
  zero : core.state.flags.zero = s.state.flags.zero
  sign : core.state.flags.sign = s.state.flags.sign
  carry : core.state.flags.carry = s.state.flags.carry
  overflow : core.state.flags.overflow = s.state.flags.overflow
  privilege : core.state.privilegeLevel = s.state.privilegeLevel
  sp : core.state.sp = s.state.sp
  kernel_sp : core.kernelStackPointer = s.kernelStackPointer
  onKernelStack : core.usingKernelInterruptStack = s.usingKernelInterruptStack

namespace CPU

variable {m : Setup W} {s s' core core' : Core W} {returnPc : ℕ}

/-- What an entry checks of SP. -/
theorem interruptFrameBase_saved_sp {base : ℕ} (h : interruptFrameBase s = (.ok base, s')) :
    requireStackPointerInRange s.state.sp (activeStackBase s) (activeStackEndExclusive s)
      = .ok () := by
  unfold interruptFrameBase at h
  simp only [↓get_bind_eq_ok] at h
  split_ifs at h with huser
  · simp only [↓lift_bind_eq_ok] at h
    obtain ⟨_, hrange, -⟩ := h
    obtain ⟨hbase, hend⟩ := activeStack_user huser
    rw [hbase, hend]
    exact hrange
  · obtain ⟨_, _, hpush, -⟩ := Exec.bind_eq_ok.mp h
    have hslots := requireStackPushSlotsAt_eq_ok.mp (lift_eq_ok.mp hpush).1
    exact requireStackPointerInRange_eq_ok.mpr hslots.1

/-- The reference's entry in terms of the frame it saves. -/
theorem enter_eq_some (h : Reference.enter s returnPc = some s') :
    let onKernelStack := s.state.isUserMode || s.usingKernelInterruptStack
    s' = { s with
      state := { s.state with
        memory := (s.savedFrame returnPc).write s.state.memory s.frameBase
        privilegeLevel := .kernel
        sp := s.frameBase + 32 }
      usingKernelInterruptStack := onKernelStack
      kernelStackPointer := if onKernelStack then s.frameBase + 32 else s.kernelStackPointer } := by
  have hframe : ({ returnAddress := BitVec.ofNat 64 returnPc
                   flags := Reference.packed s.state.flags
                   privilege := if s.state.privilegeLevel = .user then 1 else 0
                   sp := BitVec.ofNat 64 s.state.sp } : Frame) = s.savedFrame returnPc := by
    rw [Core.savedFrame, Reference.packed_eq]
    cases s.state.privilegeLevel <;> rfl
  have huser : decide (s.state.privilegeLevel = .user) = s.state.isUserMode := by
    unfold CPUState.isUserMode
    cases s.state.privilegeLevel <;> rfl
  have hbase : (if s.state.privilegeLevel = .user then s.kernelStackPointer else s.state.sp)
      = s.frameBase := rfl
  simp only [Reference.enter, hframe, huser, hbase, Option.ite_none_right_eq_some] at h
  exact (Option.some.inj h.2).symm

/-- The stack the handler runs on is the one that holds its frame. -/
theorem stackRange_of_entered (hp : core.state.privilegeLevel = .kernel)
    (hk : core.usingKernelInterruptStack = (s.state.isUserMode || s.usingKernelInterruptStack))
    (hsize : core.state.memory.size = s.state.memory.size) :
    Reference.stackRange core
      = if s.state.privilegeLevel = .user then (0xFA0, 0x1000) else Reference.stackRange s := by
  unfold Reference.stackRange CPUState.isUserMode at *
  rw [hp, hk, hsize]
  cases s.state.privilegeLevel <;> simp

/-- A pushed frame has entered an interrupt. -/
theorem entered_of_pushInterruptFrame (hsize : s.state.memory.size = 4096) {u : Unit}
    (h : pushInterruptFrame returnPc s = (.ok u, s')) : Entered s returnPc s' := by
  obtain ⟨base, s1, hbase⟩ : ∃ base s1, interruptFrameBase s = (.ok base, s1) := by
    unfold pushInterruptFrame at h
    simp only [↓get_bind_eq_ok] at h
    obtain ⟨base, s1, hbase, -⟩ := Exec.bind_eq_ok.mp h
    exact ⟨base, s1, hbase⟩
  have hfit := interruptFrameBase_fits hsize hbase
  have hsaved := interruptFrameBase_saved_sp hbase
  obtain ⟨-, rfl, hslots⟩ := interruptFrameBase_conforms hbase
  have hfit : s.frameBase + 32 ≤ s.state.memory.size := hsize ▸ hfit
  -- What the frame does is read off the reference; only where it starts and that it fits is known
  -- from the checks.
  have hs' := enter_eq_some (pushInterruptFrame_conforms h)
  have hp : s'.state.privilegeLevel = .kernel := by rw [hs']
  have hk : s'.usingKernelInterruptStack = (s.state.isUserMode || s.usingKernelInterruptStack) := by
    rw [hs']
  have hmemory : s'.state.memory = (s.savedFrame returnPc).write s.state.memory s.frameBase := by
    rw [hs']
  have hsp : s'.state.sp = s.frameBase + 32 := by rw [hs']
  have hksp : s'.kernelStackPointer
      = if s'.usingKernelInterruptStack then s.frameBase + 32 else s.kernelStackPointer := by
    rw [hs']
  have hsz : s'.state.memory.size = s.state.memory.size := by
    rw [hmemory]
    exact (Frame.size_slots _ hfit).2.2.2
  exact {
    privilege := hp
    sp := hsp
    onKernelStack := hk
    shadow := fun hk => by rw [hksp, hk, hsp, if_pos rfl]
    idle := fun hk => by rw [hksp, hk]; rfl
    frame := by rw [hmemory]; exact Frame.read_write _ hfit
    size := hsz
    inside := by rw [stackRange_of_entered hp hk hsz]; exact hslots
    saved_sp := hsaved }

/-- With a well-formed frame on top of the stack, an interrupt return succeeds exactly when the
return address can be executed. -/
theorem restoreInterruptFrame_outcome {error : Str} {frame : Frame} {p : PrivilegeLevel} {sp : ℕ}
    (hframe : Frame.read s.state.memory (s.state.sp - 32) = frame)
    (hpop : requireStackPopSlotsAt s.state.sp (activeStackBase s) (activeStackEndExclusive s) 4
      = .ok ())
    (hfit : s.state.sp - 32 + 32 ≤ s.state.memory.size)
    (hprivilege : privilegeLevelFromRaw frame.privilege = .ok p)
    (hsp : checkedSize frame.sp "Negative saved stack pointer" = .ok sp)
    (hrestored : requireRestoredStackPointer sp p s = (.ok (), s)) :
    (restoreInterruptFrame m error false s).1 = (do
      let pc ← checkedReturnAddress frame.returnAddress error
      requireExecutionAddress m pc p) := by
  subst hframe
  have hread : ∀ k, k + 8 ≤ 32 → s.state.memory.read (s.state.sp - 32 + k)
      = .ok (leWord 64 (s.state.memory.slice (s.state.sp - 32 + k) 8)) :=
    fun k hk => Memory.read_eq_ok.mpr ⟨by omega, rfl⟩
  have h0 := hread 0 (by omega)
  have h8 := hread 8 (by omega)
  have h16 := hread 16 (by omega)
  have h24 := hread 24 (by omega)
  rw [Nat.add_zero] at h0
  simp only [Frame.read] at hprivilege hsp ⊢
  simp only [restoreInterruptFrame, requireStackPopSlots, bind_apply, get_apply, lift_apply,
    readMemory_apply, kInterruptFrameSize, kInterruptFrameSlotCount, kStackSlotSize,
    Nat.reduceMul, hpop, h0, h8, h16, h24, hprivilege, Bool.false_and, Bool.not_false, if_true]
  cases checkedReturnAddress (leWord 64 (s.state.memory.slice (s.state.sp - 32) 8)) error with
  | error e => rfl
  | ok pc =>
    simp only [hsp]
    cases hexec : requireExecutionAddress m pc p with
    | error e => simp only [hexec, ok_bind]
    | ok u =>
      simp only [hexec, ok_bind, hrestored]
      cases p <;> rfl

end CPU

/-- `core` is the state in which the handler that `entered` started reaches its return: at its own
level, with SP at its frame's top and its frame intact. -/
structure Returning (entered core : Core W) : Prop where
  level : SameLevel entered core
  sp : core.state.sp = entered.state.sp
  intact : ∀ a, entered.state.sp - 32 ≤ a → a < entered.state.sp →
    core.state.memory.byteAt a = entered.state.memory.byteAt a

namespace Returning

open CPU

variable {m : Setup W} {s entered core core' : Core W} {returnPc : ℕ}

section Facts

variable (hsize : s.state.memory.size = 4096) (he : Entered s returnPc entered)
  (h : Returning entered core)

include hsize he in
/-- The frame lies inside the memory. -/
theorem base_fits : s.frameBase + 32 ≤ 4096 := by
  obtain ⟨-, -, hend⟩ := he.inside
  unfold Reference.stackRange at hend
  rw [he.privilege, he.size, hsize] at hend
  split_ifs at hend <;> simp only at hend <;> omega

include h he in
/-- The frame lies below the stack pointer at the return. -/
theorem base_eq : core.state.sp - 32 = s.frameBase := by
  rw [h.sp, he.sp]
  omega

include hsize he h in
/-- The frame at the return is the one that was pushed. -/
theorem frame : Frame.read core.state.memory (core.state.sp - 32) = s.savedFrame returnPc := by
  have hfit := base_fits hsize he
  rw [base_eq he h, ← he.frame]
  refine Frame.read_congr ?_ ?_ fun a h1 h2 => h.intact a ?_ ?_
  · rw [h.level.size, he.size, hsize]
    exact hfit
  · rw [he.size, hsize]
    exact hfit
  · rw [he.sp]
    omega
  · rw [he.sp]
    omega

include h in
/-- The stack at the return is the one the frame was pushed on. -/
theorem range : Reference.stackRange core = Reference.stackRange entered := by
  unfold Reference.stackRange
  rw [h.level.privilege, h.level.onKernelStack, h.level.size]

include h he in
/-- The four slots of the frame can be popped. -/
theorem pop : requireStackPopSlotsAt core.state.sp (activeStackBase core)
    (activeStackEndExclusive core) 4 = .ok () := by
  have hinside := he.inside
  rw [← range h, stackRange_eq] at hinside
  obtain ⟨h1, h2, h3⟩ := hinside
  simp only at h1 h2 h3
  have hsp := h.sp.trans he.sp
  rw [requireStackPopSlotsAt_eq_ok, hsp]
  omega

include hsize he in
/-- The saved stack pointer lies inside the memory. -/
theorem saved_sp_lt : s.state.sp ≤ 4096 := by
  obtain ⟨-, -, hend⟩ := requireStackPointerInRange_eq_ok.mp he.saved_sp
  unfold activeStackEndExclusive at hend
  rw [hsize] at hend
  split_ifs at hend
  · exact hend.trans (by decide)
  · exact hend.trans (by decide)
  · exact hend

include he h in
/-- The saved stack pointer passes the check of the return. -/
theorem restored_sp :
    requireRestoredStackPointer s.state.sp s.state.privilegeLevel core = (.ok (), core) := by
  have hin := he.saved_sp
  unfold requireRestoredStackPointer
  rw [bind_apply, get_apply]
  have hk := h.level.onKernelStack.trans he.onKernelStack
  have hsz := h.level.size.trans he.size
  unfold activeStackBase activeStackEndExclusive CPUState.isUserMode at hin
  unfold CPUState.isUserMode at hk
  cases hp : s.state.privilegeLevel with
  | user =>
    rw [hp] at hin
    simp only [if_true]
    rw [lift_apply]
    exact congrArg (·, core) hin
  | kernel =>
    rw [hp] at hin hk
    simp only [reduceCtorEq, if_false, hk, hsz]
    cases hu : s.usingKernelInterruptStack with
    | true =>
      rw [hu] at hin
      exact congrArg (·, core) hin
    | false =>
      rw [hu] at hin
      exact congrArg (·, core) hin

include hsize he h in
/-- The return succeeds exactly when the interrupted code may go on where it was interrupted. -/
theorem outcome (hpc : returnPc < 2 ^ 64) (error : Str) :
    (restoreInterruptFrame m error false core).1 = .ok ()
      ↔ returnPc < 2 ^ 63
        ∧ requireExecutionAddress m returnPc s.state.privilegeLevel = .ok () := by
  have hsp : checkedSize (Word.ofSize s.state.sp) "Negative saved stack pointer"
      = .ok s.state.sp := by
    have hle := saved_sp_lt hsize he
    exact (checkedSize_ofSize (by omega)).mpr ⟨by omega, rfl⟩
  have hfit : core.state.sp - 32 + 32 ≤ core.state.memory.size := by
    rw [base_eq he h, h.level.size, he.size, hsize]
    exact base_fits hsize he
  rw [restoreInterruptFrame_outcome (frame hsize he h) (pop he h) hfit
    (privilegeLevelFromRaw_toRaw s.state.privilegeLevel) hsp (restored_sp he h),
    Library.bind_eq_ok]
  have haddress : ∀ pc, checkedReturnAddress (s.savedFrame returnPc).returnAddress error = .ok pc
      ↔ returnPc < 2 ^ 63 ∧ pc = returnPc := fun pc => checkedSize_ofSize hpc
  simp only [haddress]
  exact ⟨fun ⟨_, ⟨hlt, rfl⟩, hexec⟩ => ⟨hlt, hexec⟩, fun ⟨hlt, hexec⟩ => ⟨_, ⟨hlt, rfl⟩, hexec⟩⟩

include hsize he h in
/-- A successful return restores the interrupted state. -/
theorem restored (hs : s.Consistent) {error : Str} {u : Unit}
    (hret : restoreInterruptFrame m error false core = (.ok u, core')) :
    Restored s (returnPc % 2 ^ 64) core' ∧ core'.state.memory = core.state.memory := by
  have hframe := frame hsize he h
  have hbase := base_eq he h
  have hk := h.level.onKernelStack.trans he.onKernelStack
  have hsp' : (Word.ofSize s.state.sp).toNat = s.state.sp := by
    have := saved_sp_lt hsize he
    rw [Word.ofSize, BitVec.toNat_ofNat, Nat.mod_eq_of_lt (by omega)]
  have hleave := restoreInterruptFrame_conforms hret
  have hp : Reference.savedPrivilege (s.savedFrame returnPc).privilege
      = some s.state.privilegeLevel := savedPrivilege_of_ok (privilegeLevelFromRaw_toRaw _)
  rw [hbase] at hframe
  simp only [Reference.leave, hbase, hframe, hp, Option.bind_eq_bind, Option.bind_some,
    Option.ite_none_right_eq_some] at hleave
  have hcore' := (Option.some.inj hleave.2).symm
  obtain ⟨hz, hs', hc, ho⟩ := restoreFlags_packFlags core.state.flags s.state.flags
  have hflags : core'.state.flags = restoreFlags core.state.flags (packFlags s.state.flags) := by
    rw [hcore', ← Reference.unpacked_eq]
    rfl
  -- An interrupt entered from User mode moved the shadow pointer; one entered on a Kernel stack
  -- left it where the state had it.
  have hksp : core'.kernelStackPointer = s.kernelStackPointer := by
    rw [hcore']
    simp only [Core.savedFrame, hsp']
    cases hu : core.usingKernelInterruptStack with
    | false =>
      have hentered := h.level.onKernelStack.symm.trans hu
      exact (h.level.idle hentered).trans (he.idle hentered)
    | true =>
      cases hpriv : s.state.privilegeLevel with
      | user => exact if_pos hpriv
      | kernel =>
        have huse : s.usingKernelInterruptStack = true := by
          rw [hu, CPUState.isUserMode, hpriv] at hk
          exact hk.symm
        exact (hs.shadow huse).symm
  -- Returning to User mode leaves the interrupt stack, returning to Kernel mode stays on it.
  have huse : core'.usingKernelInterruptStack = s.usingKernelInterruptStack := by
    rw [hcore']
    simp only [hk, CPUState.isUserMode]
    cases hpriv : s.state.privilegeLevel with
    | user => rw [hs.user hpriv]; rfl
    | kernel => simp
  refine ⟨⟨?_, hflags ▸ hz, hflags ▸ hs', hflags ▸ hc, hflags ▸ ho, ?_, ?_, hksp, huse⟩, ?_⟩
  · rw [hcore']
    exact BitVec.toNat_ofNat returnPc 64
  · rw [hcore']
  · rw [hcore']
    exact hsp'
  · rw [hcore']

end Facts

end Returning

/-- Back at the level of the interrupted state. -/
theorem Restored.sameLevel {s core : Core W} {returnPc : ℕ} (h : Restored s returnPc core)
    (hs : s.Consistent) (hsize : core.state.memory.size = s.state.memory.size) :
    SameLevel s core where
  privilege := h.privilege
  onKernelStack := h.onKernelStack
  shadow hk := h.kernel_sp.trans ((hs.shadow hk).trans h.sp.symm)
  idle _ := h.kernel_sp
  size := hsize

/-! ## Steps -/

/-- The machine is the same up to devices, halting and errors. -/
structure SameMachine (s core : Core W) : Prop where
  registers : core.state.registers = s.state.registers
  memory : core.state.memory = s.state.memory
  flags : core.state.flags = s.state.flags
  privilege : core.state.privilegeLevel = s.state.privilegeLevel
  pc : core.state.pc = s.state.pc
  sp : core.state.sp = s.state.sp
  kernel_sp : core.kernelStackPointer = s.kernelStackPointer
  onKernelStack : core.usingKernelInterruptStack = s.usingKernelInterruptStack
  observation : core.softwareInterruptObservation = s.softwareInterruptObservation

section Transport

open CPU

variable {s core core' : Core W} {returnPc : ℕ}

/-- Being on a level depends on the machine only. -/
theorem SameLevel.of_same (h : SameLevel s core) (hs : SameMachine core core') :
    SameLevel s core' where
  privilege := hs.privilege.trans h.privilege
  onKernelStack := hs.onKernelStack.trans h.onKernelStack
  shadow hk := hs.kernel_sp.trans ((h.shadow hk).trans hs.sp.symm)
  idle hk := hs.kernel_sp.trans (h.idle hk)
  size := (congrArg Memory.size hs.memory).trans h.size

/-- Having entered depends on the machine only. -/
theorem Entered.of_same (h : Entered s returnPc core) (hs : SameMachine core core') :
    Entered s returnPc core' where
  privilege := hs.privilege.trans h.privilege
  sp := hs.sp.trans h.sp
  onKernelStack := hs.onKernelStack.trans h.onKernelStack
  shadow hk := hs.kernel_sp.trans ((h.shadow (hs.onKernelStack.symm.trans hk)).trans hs.sp.symm)
  idle hk := hs.kernel_sp.trans (h.idle (hs.onKernelStack.symm.trans hk))
  frame := hs.memory.symm ▸ h.frame
  size := (congrArg Memory.size hs.memory).trans h.size
  inside := by
    have hrange : Reference.stackRange core' = Reference.stackRange core := by
      unfold Reference.stackRange
      rw [hs.privilege, hs.onKernelStack, hs.memory]
    rw [hrange]
    exact h.inside
  saved_sp := h.saved_sp

/-- Being restored depends on the machine only. -/
theorem Restored.of_same (h : Restored s returnPc core) (hs : SameMachine core core') :
    Restored s returnPc core' where
  pc := hs.pc.trans h.pc
  zero := (congrArg Flags.zero hs.flags).trans h.zero
  sign := (congrArg Flags.sign hs.flags).trans h.sign
  carry := (congrArg Flags.carry hs.flags).trans h.carry
  overflow := (congrArg Flags.overflow hs.flags).trans h.overflow
  privilege := hs.privilege.trans h.privilege
  sp := hs.sp.trans h.sp
  kernel_sp := hs.kernel_sp.trans h.kernel_sp
  onKernelStack := hs.onKernelStack.trans h.onKernelStack

/-- What leaves the state untouched before the entry does not matter. -/
theorem Entered.of_untouched (hs : Untouched s core) (h : Entered core returnPc core') :
    Entered s returnPc core' := by
  have hbase : core.frameBase = s.frameBase := by rw [Core.frameBase, hs.state, hs.kernel_sp]; rfl
  have hstack : activeStackBase core = activeStackBase s
      ∧ activeStackEndExclusive core = activeStackEndExclusive s := by
    simp only [activeStackBase, activeStackEndExclusive, hs.state, hs.idle, and_self]
  exact {
    privilege := h.privilege
    sp := hbase ▸ h.sp
    onKernelStack := by rw [h.onKernelStack, hs.state, hs.idle]
    shadow := h.shadow
    idle := fun hk => (h.idle hk).trans hs.kernel_sp
    frame := by
      have hframe := h.frame
      rw [Core.savedFrame, hs.state, hbase] at hframe
      exact hframe
    size := h.size.trans (congrArg (fun state => state.memory.size) hs.state)
    inside := hbase ▸ h.inside
    saved_sp := by
      have hsp := h.saved_sp
      rw [hs.state, hstack.1, hstack.2] at hsp
      exact hsp }

theorem Entered.consistent (h : Entered s returnPc core) : core.Consistent where
  user hu := absurd (h.privilege.symm.trans hu) (by simp)
  shadow := h.shadow

end Transport

namespace CPU

section Steps

variable {s core core' : Core W} {m : Setup W} {cpu : CPU W} {e : Engine} {i : InstructionView}
  {returnPc : ℕ}

/-- The instruction at PC, in either representation. -/
def current (m : Setup W) (state : CPUState) : Except Str (Engine × InstructionView) :=
  if m.hasBinaryProgram then
    (fetched m state).map fun p => (Engine.binary m, p.1.view m)
  else (fetchedProgram m state).map fun instruction =>
    (Engine.interpreted m, instruction.view m)

/-- The instruction part of a step performs the instruction at PC. -/
theorem instructionPart_of_current [LongDouble] (h : current m core.state = .ok (e, i)) :
    instructionPart m core = perform e m i core := by
  unfold current at h
  unfold instructionPart
  split_ifs at h ⊢
  · cases hf : fetched m core.state with
    | error message => rw [hf] at h; cases h
    | ok p =>
      rw [hf] at h
      obtain ⟨rfl, rfl⟩ := Prod.ext_iff.mp (Except.ok.inj h)
      simp only [executeBinaryInstruction_eq_perform]
  · cases hf : fetchedProgram m core.state with
    | error message => rw [hf] at h; cases h
    | ok instruction =>
      rw [hf] at h
      obtain ⟨rfl, rfl⟩ := Prod.ext_iff.mp (Except.ok.inj h)
      simp only [execute_eq_perform]

/-- A step of the CPU executes the instruction `i`. -/
structure Runs (cpu : CPU W) (e : Engine) (i : InstructionView) : Prop where
  running : ¬ cpu.Stopped
  noService : servicePendingInterruptIfNeeded cpu.setup cpu.stepCore = (.ok false, cpu.stepCore)
  current : current cpu.setup cpu.core.state = .ok (e, i)

/-- Devices tick without touching the machine. -/
theorem sameMachine_tickDevices (devices : List (ClockedDevice W)) :
    Keeps (SameMachine s) (tickDevices devices) := by
  induction devices with
  | nil => exact Keeps.pure _
  | cons device rest ih => exact Keeps.bind (fun _ h => { h with }) fun _ => ih

/-- After the instruction only devices, halting and errors can change. -/
theorem step_of_runs [LongDouble] (h : cpu.Runs e i) :
    SameMachine (perform e cpu.setup i cpu.stepCore).2 cpu.step.core
      ∧ ((perform e cpu.setup i cpu.stepCore).1 ≠ .ok () → cpu.step.core.state.hasError = true) := by
  have hpart : instructionPart cpu.setup cpu.stepCore = perform e cpu.setup i cpu.stepCore :=
    instructionPart_of_current h.current
  rw [step_of_running h.running h.noService, stepInstruction_core, finishInstruction, bind_apply,
    hpart]
  rcases perform e cpu.setup i cpu.stepCore with ⟨message | u, core⟩
  · exact ⟨⟨rfl, rfl, rfl, rfl, rfl, rfl, rfl, rfl, rfl⟩, fun _ => rfl⟩
  · refine ⟨?_, fun hne => absurd rfl hne⟩
    have hkeep : Keeps (SameMachine core) (tickUnlessStopped cpu.setup) := by
      refine Keeps.get.bind fun _ => ?_
      split_ifs
      · exact sameMachine_tickDevices _
      · exact Keeps.pure _
    have hticked := hkeep core ⟨rfl, rfl, rfl, rfl, rfl, rfl, rfl, rfl, rfl⟩
    dsimp only
    generalize tickUnlessStopped cpu.setup core = outcome at hticked ⊢
    rcases outcome with ⟨message | u, core'⟩
    · exact { hticked with }
    · exact hticked

/-- A step of the CPU enters an interrupt handler, for a pending request or for an `INT` that no
host handler has serviced, and saves `returnPc` as the return address. -/
inductive Enters [LongDouble] (cpu : CPU W) : ℕ → Prop
  | pending {core : Core W} (running : ¬ cpu.Stopped)
      (serviced : servicePendingInterruptIfNeeded cpu.setup cpu.stepCore = (.ok true, core)) :
      Enters cpu cpu.core.state.pc
  | int {e : Engine} {i : InstructionView} (runs : cpu.Runs e i) (opcode : i.opcode = .INT)
      (performed : (perform e cpu.setup i cpu.stepCore).1 = .ok ())
      (notHost : cpu.step.core.softwareInterruptObservation = none) :
      Enters cpu (cpu.core.state.pc + e.size)

/-- A return has the property `Q`. -/
abbrev Returns {α : Type} (s : Core W) (x : Op W α) (Q : α → Core W → Prop) : Prop :=
  Triple (Untouched s) x Q (fun _ _ => True)

/-- Something that leaves the state untouched may come first. -/
theorem Returns.after {α β : Type} {x : Op W α} {f : α → Op W β} {Q : β → Core W → Prop}
    (hx : Keeps (Untouched s) x) (hf : ∀ a, Returns s (f a) Q) : Returns s (x >>= f) Q :=
  Triple.bind (hx.triple.conseq (fun _ h => h) (fun _ _ h => h) fun _ _ _ => trivial) hf

theorem Returns.read {α : Type} {f : Core W → Op W α} {Q : α → Core W → Prop}
    (hf : ∀ core, Untouched s core → Returns s (f core) Q) : Returns s (Exec.get >>= f) Q :=
  fun core h => hf core h core h

/-- A pushed frame has entered the interrupt. -/
theorem returns_pushInterruptFrame (hsize : s.state.memory.size = 4096) (returnPc : ℕ) :
    Returns s (pushInterruptFrame returnPc) fun _ core => Entered s returnPc core := by
  intro core h
  cases hpush : pushInterruptFrame returnPc core with
  | mk result after =>
    rcases result with message | u
    · exact trivial
    · exact Entered.of_untouched h (entered_of_pushInterruptFrame (h.state ▸ hsize) hpush)

/-- What follows the frame of an entry: registers and PC. -/
theorem entered_modifyState {f : CPUState → CPUState}
    (hf : ∀ state, (f state).privilegeLevel = state.privilegeLevel ∧ (f state).sp = state.sp
      ∧ (f state).memory = state.memory) :
    Triple (Entered s returnPc) (modifyState f) (fun _ => Entered s returnPc)
      (fun _ _ => True) := by
  intro core h
  obtain ⟨hprivilege, hsp, hmemory⟩ := hf core.state
  have hframe := h.frame
  have hinside := h.inside
  exact {
    privilege := hprivilege.trans h.privilege
    sp := hsp.trans h.sp
    onKernelStack := h.onKernelStack
    shadow := fun hk => (h.shadow hk).trans hsp.symm
    idle := h.idle
    frame := (congrArg (Frame.read · s.frameBase) hmemory).trans hframe
    size := (congrArg Memory.size hmemory).trans h.size
    inside := by
      simp only [Reference.stackRange, Core.updateState, hprivilege, hmemory]
      exact hinside
    saved_sp := h.saved_sp }

theorem entered_setRegister (reg : RegisterName) (value : Word) :
    Triple (Entered s returnPc) (setRegister reg value) (fun _ => Entered s returnPc)
      (fun _ _ => True) := entered_modifyState fun _ => ⟨rfl, rfl, rfl⟩

theorem entered_setPc (address : ℕ) :
    Triple (Entered s returnPc) (setPc address) (fun _ => Entered s returnPc)
      (fun _ _ => True) := entered_modifyState fun _ => ⟨rfl, rfl, rfl⟩

/-- A pending request is serviced by saving a frame, then the arguments and PC. -/
theorem entered_of_service (hsize : s.state.memory.size = 4096)
    (h : servicePendingInterruptIfNeeded m s = (.ok true, core)) :
    Entered s s.state.pc core := by
  have hreturns : Returns s (servicePendingInterruptIfNeeded m)
      fun serviced core => serviced = true → Entered s s.state.pc core := by
    refine Returns.read fun core hcore => ?_
    cases m.interruptController with
    | none => exact Triple.pure fun _ _ h => by cases h
    | some r =>
      dsimp only
      split_ifs
      · exact Triple.pure fun _ _ h => by cases h
      all_goals
        refine Returns.after (Keeps.lift _) fun acknowledged =>
          Returns.after (fun _ h => { h with }) fun _ => Returns.after (Keeps.lift _) fun handler =>
            Returns.after (Keeps.require _ _) fun _ => ?_
        rw [hcore.state]
        refine Triple.bind (returns_pushInterruptFrame hsize s.state.pc) fun _ => ?_
        exact Triple.bind (entered_setRegister _ _) fun _ => Triple.bind (entered_setRegister _ _)
          fun _ => Triple.bind (entered_setPc handler) fun _ => Triple.pure fun _ h _ => h
  exact hreturns.ok ⟨rfl, rfl, rfl⟩ h rfl

/-- Nothing is asked of the outcome. -/
theorem triple_true {α : Type} {P : Core W → Prop} {x : Op W α} :
    Triple P x (fun _ _ => True) (fun _ _ => True) := by
  intro core _
  rcases x core with ⟨_ | _, _⟩ <;> exact trivial

/-- A host handler that services an interrupt leaves a record of it. -/
theorem returns_serviceHost (vector : UInt8) (returnAddress : ℕ) :
    Returns s (serviceHostSoftwareInterrupt m vector returnAddress) fun serviced core =>
      if serviced then core.softwareInterruptObservation ≠ none else Untouched s core := by
  unfold serviceHostSoftwareInterrupt
  cases m.softwareInterruptHandler with
  | none => exact Triple.pure fun _ h => h
  | some handler =>
    dsimp only
    split
    · exact Triple.pure fun _ h => h
    · refine Triple.bind triple_true fun _ => Triple.bind triple_true fun _ =>
        Triple.bind triple_true fun result => Triple.bind triple_true fun _ => ?_
      refine Triple.bind (Triple.modify fun core _ => ?_ :
        Triple _ _ (fun _ core => core.softwareInterruptObservation ≠ none) _) fun _ => ?_
      · exact Option.some_ne_none _
      · split_ifs
        · exact Triple.bind (Triple.modify fun _ h => h) fun _ => Triple.pure fun _ h => h
        · exact Triple.pure fun _ h => h

/-- Entering a handler enters the interrupt. -/
theorem returns_enterVectorHandler (hsize : s.state.memory.size = 4096)
    (r : Ref W InterruptController) (vector : UInt8) (returnPc : ℕ) (handlerOk : ℕ → Bool)
    (handlerError : Str) :
    Returns s (enterVectorHandler r vector returnPc handlerOk handlerError)
      fun _ core => Entered s returnPc core := by
  refine Returns.read fun _ _ => Returns.after (Keeps.lift _) fun handler =>
    Returns.after (Keeps.require _ _) fun _ => ?_
  exact Triple.bind (returns_pushInterruptFrame hsize returnPc) fun _ =>
    Triple.bind (entered_setRegister _ _) fun _ => entered_setPc handler

/-- An `INT` that is not serviced by the host is an entry, too. -/
theorem entered_of_int [LongDouble] (hsize : s.state.memory.size = 4096) (hop : i.opcode = .INT)
    (h : perform e m i s = (.ok (), core)) (hnot : core.softwareInterruptObservation = none) :
    Entered s (s.state.pc + e.size) core := by
  have hreturns : Returns s (perform e m i) fun _ core =>
      core.softwareInterruptObservation = none → Entered s (s.state.pc + e.size) core := by
    refine Returns.after (keeps_untouched_privilege _) fun _ => ?_
    rw [hop]
    refine Returns.after (Keeps.lift _) fun _ => ?_
    cases m.interruptController with
    | none => exact Triple.throw fun _ _ => trivial
    | some r =>
      refine Returns.after (keeps_untouched_readSource _) fun _ => Returns.after (Keeps.lift _)
        fun vector => Returns.read fun c hc => ?_
      rw [hc.state]
      refine Triple.bind (returns_serviceHost vector _) fun serviced => ?_
      cases serviced with
      | true => exact Triple.pure fun _ h hnone => absurd hnone h
      | false =>
        exact (returns_enterVectorHandler hsize r vector _ _ _).conseq (fun _ h => h)
          (fun _ _ h _ => h) fun _ _ h => h
  exact hreturns.ok ⟨rfl, rfl, rfl⟩ h hnot

/-- A step that enters an interrupt has pushed its frame. -/
theorem entered_of_enters [LongDouble] (hsize : cpu.core.state.memory.size = 4096)
    (h : cpu.Enters returnPc) : Entered cpu.core returnPc cpu.step.core := by
  have huntouched : Untouched cpu.core cpu.stepCore := ⟨rfl, rfl, rfl⟩
  cases h with
  | pending running serviced =>
    have hcore : cpu.step.core = _ := step_core_of_service running serviced
    rw [hcore]
    exact Entered.of_untouched huntouched (entered_of_service hsize serviced)
  | int runs opcode performed notHost =>
    have hsame := (step_of_runs runs).1
    have hentered := entered_of_int (s := cpu.stepCore) hsize opcode (Prod.ext performed rfl)
      (hsame.observation.symm.trans notHost)
    exact Entered.of_untouched huntouched (Entered.of_same hentered hsame)

end Steps

/-! ## Well-nested runs -/

/-- The handler entered by a step of `cpu` reaches its `IRET` in `leaving`: SP is at the top of the
handler's frame and the frame is intact. -/
structure AtReturn [LongDouble] (cpu leaving : CPU W) : Prop where
  sp : leaving.core.state.sp = cpu.step.core.state.sp
  intact : ∀ a, cpu.step.core.state.sp - 32 ≤ a → a < cpu.step.core.state.sp →
    leaving.core.state.memory.byteAt a = cpu.step.core.state.memory.byteAt a

/-- A handler that starts with its `IRET`. -/
theorem AtReturn.immediate [LongDouble] (cpu : CPU W) : AtReturn cpu cpu.step :=
  ⟨rfl, fun _ _ _ => rfl⟩

/-- The frame is a slice of the memory. -/
theorem AtReturn.of_slice [LongDouble] {cpu leaving : CPU W} {base : ℕ}
    (h : cpu.step.core.state.sp = base + 32) (h' : leaving.core.state.sp = base + 32)
    (hslice : leaving.core.state.memory.slice base 32 = cpu.step.core.state.memory.slice base 32) :
    AtReturn cpu leaving := by
  refine ⟨h'.trans h.symm, fun a hle hlt => ?_⟩
  rw [h] at hle hlt
  obtain ⟨i, rfl⟩ := Nat.exists_eq_add_of_le ((Nat.add_sub_cancel base 32).symm.trans_le hle)
  have hbyte := congrArg (fun bytes : List UInt8 => (bytes[i]?).getD 0) hslice
  simpa only [Memory.slice, List.getElem?_take_of_lt (show i < 32 by omega), List.getElem?_drop,
    ← List.getD_eq_getElem?_getD, Memory.byteAt] using hbyte

/-- A step of the CPU executes a well-formed `IRET`. -/
def RunsIret (cpu : CPU W) (e : Engine) : Prop :=
  ∃ i, cpu.Runs e i ∧ i.opcode = .IRET ∧ i.noOperand = .ok ()

/-- A run of steps in which every interrupt entry has its return. -/
inductive Nested [LongDouble] : CPU W → CPU W → Prop
  | refl (cpu : CPU W) : Nested cpu cpu
  | plain {cpu cpu' : CPU W} {e : Engine} {i : InstructionView} (runs : cpu.Runs e i)
      (int : i.opcode ≠ .INT) (iret : i.opcode ≠ .IRET) (rest : Nested cpu.step cpu') :
      Nested cpu cpu'
  | interrupt {cpu leaving cpu' : CPU W} {returnPc : ℕ} {e : Engine}
      (enters : cpu.Enters returnPc) (handler : Nested cpu.step leaving)
      (atReturn : AtReturn cpu leaving) (iret : leaving.RunsIret e)
      (returned : leaving.step.core.state.hasError = false) (rest : Nested leaving.step cpu') :
      Nested cpu cpu'

/-- A run of steps at any depth: some entries are still to return. -/
inductive Reaches [LongDouble] : CPU W → CPU W → Prop
  | nested {cpu cpu' : CPU W} (run : Nested cpu cpu') : Reaches cpu cpu'
  | inside {cpu entering cpu' : CPU W} {returnPc : ℕ} (run : Nested cpu entering)
      (enters : entering.Enters returnPc) (rest : Reaches entering.step cpu') : Reaches cpu cpu'

section Nesting

variable {cpu cpu' leaving : CPU W} {e : Engine} {i : InstructionView} {returnPc : ℕ}

/-- What an `IRET` does is `restoreInterruptFrame`. -/
theorem perform_iret [LongDouble] {m : Setup W} {core : Core W} (hop : i.opcode = .IRET)
    (hnone : i.noOperand = .ok ()) (hkernel : core.state.privilegeLevel = .kernel) :
    perform e m i core = restoreInterruptFrame m e.interruptReturnError false core := by
  have hprivilege : requireInstructionPrivilege (W := W) i.opcode core = (.ok (), core) := by
    have huser : core.state.isUserMode = false := by rw [CPUState.isUserMode, hkernel]; rfl
    simp only [requireInstructionPrivilege, bind_apply, get_apply, huser, Bool.not_false, if_true]
    rfl
  rw [perform, bind_of_ok hprivilege, hop]
  simp only [hnone, bind_apply, lift_apply]

section Match

variable [LongDouble] (hs : cpu.core.Consistent) (hsize : cpu.core.state.memory.size = 4096)
  (henters : cpu.Enters returnPc) (hlevel : SameLevel cpu.step.core leaving.core)
  (hreturn : AtReturn cpu leaving) (hiret : leaving.RunsIret e)

include hsize henters hlevel hiret in
/-- The step that ends a handler is `restoreInterruptFrame`. -/
theorem step_of_iret :
    SameMachine (restoreInterruptFrame leaving.setup e.interruptReturnError false
        leaving.stepCore).2 leaving.step.core
      ∧ ((restoreInterruptFrame leaving.setup e.interruptReturnError false leaving.stepCore).1
        ≠ .ok () → leaving.step.core.state.hasError = true) := by
  obtain ⟨i, hruns, hop, hnone⟩ := hiret
  have hkernel : leaving.stepCore.state.privilegeLevel = .kernel :=
    hlevel.privilege.trans (entered_of_enters hsize henters).privilege
  have hstep := step_of_runs hruns
  rw [perform_iret hop hnone hkernel] at hstep
  exact hstep

include hlevel hreturn in
/-- The start of the step that returns leaves the machine as it is. -/
theorem returning_stepCore : Returning cpu.step.core leaving.stepCore where
  level := { hlevel with }
  sp := hreturn.sp
  intact := hreturn.intact

include hs hsize henters hlevel hreturn hiret in
/-- An interrupt return that does not end in error restores the interrupted state. -/
theorem restored_of_iret (hok : leaving.step.core.state.hasError = false) :
    Restored cpu.core (returnPc % 2 ^ 64) leaving.step.core
      ∧ SameLevel cpu.core leaving.step.core := by
  have hentered := entered_of_enters hsize henters
  have hret := returning_stepCore hlevel hreturn
  obtain ⟨hsame, herror⟩ := step_of_iret hsize henters hlevel hiret
  rcases hout : restoreInterruptFrame leaving.setup e.interruptReturnError false leaving.stepCore
    with ⟨message | u, after⟩
  · rw [hout] at herror
    exact absurd (herror (by simp)) (by rw [hok]; simp)
  · rw [hout] at hsame
    obtain ⟨hrestored, hmemory⟩ := hret.restored hsize hentered hs hout
    have hsz : after.state.memory.size = cpu.core.state.memory.size := by
      rw [hmemory]
      exact hret.level.size.trans hentered.size
    exact ⟨Restored.of_same hrestored hsame,
      SameLevel.of_same (hrestored.sameLevel hs hsz) hsame⟩

end Match

/-- Entries with their returns keep the level. -/
theorem Nested.sameLevel [LongDouble] (h : Nested cpu cpu') (hs : cpu.core.Consistent)
    (hsize : cpu.core.state.memory.size = 4096) : SameLevel cpu.core cpu'.core := by
  induction h with
  | refl cpu => exact SameLevel.refl hs
  | plain runs int iret rest ih =>
    rename_i cpu _ e i
    have hkeep := (SameLevel.closed cpu.stepCore).keeps_perform (e := e) (m := cpu.setup) int iret
      cpu.stepCore (SameLevel.refl (s := cpu.stepCore) ⟨hs.user, hs.shadow⟩)
    have hstep : SameLevel cpu.core cpu.step.core :=
      { hkeep.of_same (step_of_runs runs).1 with }
    exact hstep.trans (ih (hstep.consistent hs) (hstep.size.trans hsize))
  | interrupt enters handler atReturn iret returned rest ihh ihr =>
    have hentered := entered_of_enters hsize enters
    have hhandler := ihh hentered.consistent (hentered.size.trans hsize)
    obtain ⟨-, hback⟩ := restored_of_iret hs hsize enters hhandler atReturn iret returned
    exact hback.trans (ihr (hback.consistent hs) (hback.size.trans hsize))

/-- At any depth the Kernel stack pointer is in step with SP. -/
theorem Reaches.consistent [LongDouble] (h : Reaches cpu cpu') (hs : cpu.core.Consistent)
    (hsize : cpu.core.state.memory.size = 4096) :
    cpu'.core.Consistent ∧ cpu'.core.state.memory.size = 4096 := by
  induction h with
  | nested run =>
    have hlevel := run.sameLevel hs hsize
    exact ⟨hlevel.consistent hs, hlevel.size.trans hsize⟩
  | inside run enters rest ih =>
    have hlevel := run.sameLevel hs hsize
    have hentered := entered_of_enters (hlevel.size.trans hsize) enters
    exact ih hentered.consistent (hentered.size.trans (hlevel.size.trans hsize))

/-- Interrupt nesting restores the machine exactly. Wherever in a well-nested run an interrupt is
entered, the matching `IRET` brings back the return PC, the four flags, the privilege, SP, the
Kernel stack pointer and whether it is in use; it fails only when the interrupted code may not be
executed at the return PC. An entry that throws changes nothing. -/
theorem interrupts_nest [LongDouble] {start cpu leaving : CPU W} {returnPc : ℕ} {e : Engine}
    (hstart : start.core.Consistent)
    (hsize : start.core.state.memory.size = MemoryMap.kDefaultMemorySize)
    (hreach : Reaches start cpu) (henters : cpu.Enters returnPc) (hpc : returnPc < 2 ^ 64)
    (hhandler : Nested cpu.step leaving) (hreturn : AtReturn cpu leaving)
    (hiret : leaving.RunsIret e) :
    (if returnPc < 2 ^ 63 ∧ requireExecutionAddress leaving.setup returnPc
        cpu.core.state.privilegeLevel = .ok () then Restored cpu.core returnPc leaving.step.core
      else leaving.step.core.state.hasError = true)
    ∧ ∀ (m : Setup W) (s core : Core W) (message : Str),
      s.state.memory.size = MemoryMap.kDefaultMemorySize →
      (servicePendingInterruptIfNeeded m s = (.error message, core)
        ∨ ∃ r vector address handlerOk handlerError,
          enterVectorHandler r vector address handlerOk handlerError s = (.error message, core)) →
      Untouched s core := by
  obtain ⟨hs, hsize⟩ := hreach.consistent hstart hsize
  have hentered := entered_of_enters hsize henters
  have hlevel := hhandler.sameLevel hentered.consistent (hentered.size.trans hsize)
  have hret := returning_stepCore hlevel hreturn
  obtain ⟨hsame, herror⟩ := step_of_iret hsize henters hlevel hiret
  -- The frame is as it was pushed, so only the address check of the return decides.
  have houtcome := hret.outcome (m := leaving.setup) hsize hentered hpc e.interruptReturnError
  refine ⟨?_, fun m s core message hsize hthrow => ?_⟩
  · split_ifs with hexec
    · rcases hout : restoreInterruptFrame leaving.setup e.interruptReturnError false
        leaving.stepCore with ⟨message | u, after⟩
      · rw [hout] at houtcome
        cases houtcome.mpr hexec
      · rw [hout] at hsame
        have hrestored := (hret.restored hsize hentered hs hout).1
        rw [Nat.mod_eq_of_lt hpc] at hrestored
        exact hrestored.of_same hsame
    · exact herror fun hok => hexec (houtcome.mp hok)
  · rcases hthrow with hthrow | ⟨r, vector, address, handlerOk, handlerError, hthrow⟩
    · exact (precise_servicePending (m := m) (s := s) hsize).error ⟨rfl, rfl, rfl⟩ hthrow
    · exact (precise_enterVectorHandler (s := s) hsize r vector address handlerOk
        handlerError).error ⟨rfl, rfl, rfl⟩ hthrow

end Nesting

/-! ## A User program with a handler -/

/-- `INT 5` twice, then its handler, which only returns, then `INT 5` as the last instruction. -/
def interruptProgram : List Instruction :=
  [⟨.INT, .immediate 5, .none⟩, ⟨.INT, .immediate 5, .none⟩, ⟨.IRET, .none, .none⟩,
    ⟨.INT, .immediate 5, .none⟩]

/-- The world is the interrupt controller. -/
def controllerRef : Ref InterruptController InterruptController where
  get := id
  set controller _ := controller
  get_set _ _ := rfl
  set_get _ := rfl
  set_set _ _ _ := rfl

/-- The program in User mode at `pc`. -/
def interruptedAt (pc : ℕ) : CPU InterruptController :=
  let controller := { InterruptController.clear with vectorTable := fun _ => some 2 }
  let cpu := (CPU.new controller).loadProgram interruptProgram []
  { cpu with
    setup := { cpu.setup with interruptController := some controllerRef }
    core := { cpu.core with
      state := { cpu.core.state with privilegeLevel := .user, pc := pc } } }

section Sample

variable {cpu : CPU InterruptController} {instruction : Instruction}

/-- The program's CPU is running, no request is pending and `instruction` is next. -/
def IsNext (cpu : CPU InterruptController) (instruction : Instruction) : Prop :=
  cpu.setup.hasBinaryProgram = false ∧ cpu.core.state.halted = false
    ∧ cpu.core.state.hasError = false ∧ cpu.core.world.hasPending = false
    ∧ fetchedProgram cpu.setup cpu.core.state = .ok instruction

instance : Decidable (IsNext cpu instruction) := inferInstanceAs (Decidable (_ ∧ _))

/-- An instruction that is next is performed by the step. -/
theorem IsNext.runs (h : IsNext cpu instruction)
    (hr : cpu.setup.interruptController = some controllerRef) :
    cpu.Runs (Engine.interpreted cpu.setup) (instruction.view cpu.setup) := by
  obtain ⟨hb, hhalted, herror, hpending, hf⟩ := h
  refine ⟨?_, servicePending_of_noPending fun r hr' => ?_, ?_⟩
  · rintro (hstop | hstop)
    · exact absurd (hstop.symm.trans hhalted) (by simp)
    · exact absurd (hstop.symm.trans herror) (by simp)
  · obtain rfl := Option.some.inj (hr.symm.trans hr')
    exact hpending
  · rw [current, if_neg (by simp [hb]), hf]
    rfl

/-- An `INT` that is next and raises no error enters its handler. -/
theorem IsNext.enters [LongDouble] (h : IsNext cpu instruction)
    (hr : cpu.setup.interruptController = some controllerRef) (hop : instruction.opcode = .INT)
    (hok : cpu.step.core.state.hasError = false)
    (hhost : cpu.step.core.softwareInterruptObservation = none) {returnPc : ℕ}
    (hpc : cpu.core.state.pc + 1 = returnPc) : cpu.Enters returnPc := by
  subst hpc
  refine .int (h.runs hr) hop ?_ hhost
  by_contra hne
  exact absurd ((step_of_runs (h.runs hr)).2 hne) (by rw [hok]; simp)

/-- An `IRET` that is next is performed by the step. -/
theorem IsNext.runsIret [LongDouble] (h : IsNext cpu.step ⟨.IRET, .none, .none⟩)
    (hr : cpu.setup.interruptController = some controllerRef) :
    cpu.step.RunsIret (Engine.interpreted cpu.step.setup) :=
  ⟨_, h.runs ((congrArg Setup.interruptController (step_setup cpu)).trans hr), rfl, rfl⟩

end Sample

/-- A core without a Kernel interrupt stack in use is consistent. -/
theorem Core.Consistent.of_idle {s : Core W} (h : s.usingKernelInterruptStack = false) :
    s.Consistent := ⟨fun _ => h, fun hk => absurd (h.symm.trans hk) (by simp)⟩

/-- `INT 5`, whose handler calls `INT 6`, from User mode. -/
def nestingCpu : CPU InterruptController :=
  let controller := { InterruptController.clear with
    vectorTable := fun vector => if vector = 5 then some 2 else if vector = 6 then some 4 else none }
  let cpu := (CPU.new controller).loadProgram
    [⟨.INT, .immediate 5, .none⟩, ⟨.NOP, .none, .none⟩, ⟨.INT, .immediate 6, .none⟩,
      ⟨.IRET, .none, .none⟩, ⟨.IRET, .none, .none⟩] []
  { cpu with
    setup := { cpu.setup with interruptController := some controllerRef }
    core := { cpu.core with state := { cpu.core.state with privilegeLevel := .user } } }

/-- Its run: into both handlers and out of the inner one, whose frame lies above the outer one. -/
theorem nestingCpu_run :
    letI : LongDouble := LongDouble.x87
    (IsNext nestingCpu ⟨.INT, .immediate 5, .none⟩
        ∧ IsNext nestingCpu.step ⟨.INT, .immediate 6, .none⟩
        ∧ IsNext nestingCpu.step.step ⟨.IRET, .none, .none⟩
        ∧ IsNext nestingCpu.step.step.step ⟨.IRET, .none, .none⟩)
      ∧ (nestingCpu.step.core.softwareInterruptObservation = none
        ∧ nestingCpu.step.step.core.softwareInterruptObservation = none)
      ∧ (nestingCpu.step.core.state.pc = 2 ∧ nestingCpu.step.core.state.privilegeLevel = .kernel)
      ∧ (nestingCpu.step.core.state.sp = 4032 ∧ nestingCpu.step.step.step.core.state.sp = 4032)
      ∧ nestingCpu.step.step.step.core.state.memory.slice 4000 32
        = nestingCpu.step.core.state.memory.slice 4000 32 := by
  decide +kernel

/-- Both returns restore what their interrupts found: Kernel mode in the handler of `INT 5`, and User
mode behind `INT 5`. -/
theorem interrupts_nest_first :
    letI : LongDouble := LongDouble.x87
    Restored nestingCpu.step.core 3 nestingCpu.step.step.step.core
      ∧ Restored nestingCpu.core 1 nestingCpu.step.step.step.step.core := by
  have hrun := nestingCpu_run
  -- Nothing else depends on the converter.
  generalize LongDouble.x87 = longDouble at hrun ⊢
  obtain ⟨⟨hfirst, hsecond, hinner, houter⟩, ⟨hhost, hhost'⟩, ⟨hpc, hkernel⟩, ⟨hsp, hsp'⟩, hslice⟩ :=
    hrun
  have hr : nestingCpu.step.setup.interruptController = some controllerRef :=
    (congrArg Setup.interruptController (step_setup nestingCpu)).trans rfl
  have hr' : nestingCpu.step.step.setup.interruptController = some controllerRef :=
    (congrArg Setup.interruptController (step_setup nestingCpu.step)).trans hr
  have henters : nestingCpu.Enters 1 := hfirst.enters rfl rfl hsecond.2.2.1 hhost rfl
  have henters' : nestingCpu.step.Enters 3 :=
    hsecond.enters hr rfl hinner.2.2.1 hhost' (congrArg (· + 1) hpc)
  have hreturns := hinner.runsIret hr
  have hhandler : Nested nestingCpu.step nestingCpu.step.step.step :=
    .interrupt henters' (.refl _) (.immediate _) hreturns houter.2.2.1 (.refl _)
  have hreturn : AtReturn nestingCpu nestingCpu.step.step.step := .of_slice hsp hsp' hslice
  have hstart : nestingCpu.core.Consistent := Core.Consistent.of_idle rfl
  have hsize : nestingCpu.core.state.memory.size = 4096 := by decide +kernel
  have hexec : requireExecutionAddress nestingCpu.step.step.setup 3
      nestingCpu.step.core.state.privilegeLevel = .ok () := by
    rw [step_setup, step_setup, hkernel]
    rfl
  have hexec' : requireExecutionAddress nestingCpu.step.step.step.setup 1
      nestingCpu.core.state.privilegeLevel = .ok () := by
    rw [step_setup, step_setup, step_setup]
    rfl
  have hnested := interrupts_nest hstart hsize (.inside (.refl _) henters (.nested (.refl _)))
    henters' (by decide) (.refl _) (.immediate _) hreturns
  have hboth := interrupts_nest hstart hsize (.nested (.refl _)) henters (by decide) hhandler hreturn
    (houter.runsIret hr')
  rw [if_pos ⟨by decide, hexec⟩] at hnested
  rw [if_pos ⟨by decide, hexec'⟩] at hboth
  exact ⟨hnested.1, hboth.1⟩

/-- User mode with the Kernel interrupt stack in use: the state of a CPU in a handler after
`setPrivilegeLevel`. -/
def resumedAt (pc : ℕ) : CPU InterruptController :=
  let cpu := interruptedAt pc
  { cpu with core := { cpu.core with
    kernelStackPointer := 4032, usingKernelInterruptStack := true } }

/-- A step enters a handler that only returns, with the result `P`. -/
theorem entersAndReturns [LongDouble] {cpu : CPU InterruptController} {returnPc : ℕ} {P : Prop}
    (hr : cpu.setup.interruptController = some controllerRef)
    (hpc : cpu.core.state.pc + 1 = returnPc)
    (hint : IsNext cpu ⟨.INT, .immediate 5, .none⟩)
    (hrun : IsNext cpu.step ⟨.IRET, .none, .none⟩
      ∧ cpu.step.core.softwareInterruptObservation = none ∧ P) :
    (cpu.Enters returnPc ∧ AtReturn cpu cpu.step ∧ ∃ e, cpu.step.RunsIret e) ∧ P := by
  obtain ⟨hiret, hhost, hP⟩ := hrun
  exact ⟨⟨hint.enters hr rfl hiret.2.2.1 hhost hpc, AtReturn.immediate cpu,
    ⟨_, hiret.runsIret hr⟩⟩, hP⟩

/-- In User mode with the Kernel interrupt stack in use, the return from a handler does not bring
the flag back; and after an `INT` at the end of the User code there is nothing to return to. -/
theorem interrupt_not_restored :
    letI : LongDouble := LongDouble.x87
    ((resumedAt 1).core.state.privilegeLevel = .user
      ∧ (resumedAt 1).core.usingKernelInterruptStack = true
      ∧ ((resumedAt 1).Enters 2 ∧ AtReturn (resumedAt 1) (resumedAt 1).step
        ∧ ∃ e, (resumedAt 1).step.RunsIret e)
      ∧ (resumedAt 1).step.step.core.state.hasError = false
      ∧ (resumedAt 1).step.step.core.usingKernelInterruptStack = false)
    ∧ ((interruptedAt 3).core.Consistent
      ∧ ((interruptedAt 3).Enters 4 ∧ AtReturn (interruptedAt 3) (interruptedAt 3).step
        ∧ ∃ e, (interruptedAt 3).step.RunsIret e)
      ∧ (interruptedAt 3).step.step.core.state.hasError = true) :=
  ⟨⟨rfl, rfl, @entersAndReturns LongDouble.x87 _ _ _ rfl rfl (by decide +kernel)
      (by decide +kernel)⟩,
    Core.Consistent.of_idle rfl, @entersAndReturns LongDouble.x87 _ _ _ rfl rfl (by decide +kernel)
      (by decide +kernel)⟩

end CPU

end ZeroCpu
