import ZeroCpu.Core.Reference
import ZeroCpu.Core.Stack

/-!
# Execution conforms to the reference semantics

What a step does when it raises no error is what the reference prescribes. The proof is a dictionary
from the CPU's primitives to the reference's, then one case analysis over the instruction set. It is
done on `perform`, so both engines are covered at once.
-/

namespace ZeroCpu

open Library Exec MemoryMap

variable {W : Type}

namespace Reference

/-! ## FLAGS -/

/-- The bits of a single flag bit. -/
theorem getLsbD_bit (position : ℕ) (v : Bool) (h : position < 32) (k : ℕ) :
    (bit position v).getLsbD k = (decide (k = position) && v) := by
  cases v with
  | false => simp [bit]
  | true =>
    simp only [bit, if_true, BitVec.getLsbD_twoPow, Bool.and_true]
    rcases eq_or_ne k position with rfl | hk
    · simp [h]
    · simp [hk, hk.symm]

/-- The bits of FLAGS after the four of the ALU are set. -/
theorem getLsbD_withFlags (before : Flags) (z s c o : Bool) {k : ℕ} (hk : k < 32) :
    (withFlags before z s c o).bits.getLsbD k
      = if k = 11 then o else if k = 0 then c else if k = 7 then s else if k = 6 then z
        else before.bits.getLsbD k := by
  have hmask : ∀ j : Fin 32, (~~~0x8C1#32).getLsbD j.val
      = !(decide (j.val = 0) || decide (j.val = 6) || decide (j.val = 7) || decide (j.val = 11)) := by
    decide
  have hm := hmask ⟨k, hk⟩
  simp only [withFlags, BitVec.getLsbD_or, BitVec.getLsbD_and, getLsbD_bit _ _ (by omega : 0 < 32),
    getLsbD_bit _ _ (by omega : 6 < 32), getLsbD_bit _ _ (by omega : 7 < 32),
    getLsbD_bit _ _ (by omega : 11 < 32), hm]
  by_cases h0 : k = 0 <;> by_cases h6 : k = 6 <;> by_cases h7 : k = 7 <;> by_cases h11 : k = 11 <;>
    simp [h0, h6, h7, h11]

/-- FLAGS is its 32 bits. -/
theorem flags_ext {f g : Flags} (h : ∀ k, k < 32 → f.bits.getLsbD k = g.bits.getLsbD k) :
    f = g := by
  cases f
  cases g
  exact congrArg Flags.mk (BitVec.eq_of_getLsbD_eq h)

/-- Setting Z, S, C and O one by one is setting the four flags. -/
theorem withFlags_eq_set (before : Flags) (z s c o : Bool) :
    withFlags before z s c o
      = (((before.setZero z).setSign s).setCarry c).setOverflow o := by
  refine flags_ext fun k hk => ?_
  rw [getLsbD_withFlags _ _ _ _ _ hk]
  simp only [Flags.setZero, Flags.setSign, Flags.setCarry, Flags.setOverflow,
    Flags.getLsbD_set _ _ _ _ (by decide : Flags.ZF < 32),
    Flags.getLsbD_set _ _ _ _ (by decide : Flags.SF < 32),
    Flags.getLsbD_set _ _ _ _ (by decide : Flags.CF < 32),
    Flags.getLsbD_set _ _ _ _ (by decide : Flags.OF < 32)]
  rfl

/-- Setting the zero and sign flags is what the CPU does. -/
theorem withZS_eq (before : Flags) (v : Word) : withZS before v = before.updateZeroAndSign v := by
  refine flags_ext fun k hk => ?_
  rw [withZS, getLsbD_withFlags _ _ _ _ _ hk]
  simp only [Flags.updateZeroAndSign, Flags.setZero, Flags.setSign,
    Flags.getLsbD_set _ _ _ _ (by decide : Flags.ZF < 32),
    Flags.getLsbD_set _ _ _ _ (by decide : Flags.SF < 32)]
  rw [Flags.carry, Flags.overflow, Flags.test_eq_getLsbD _ (by decide),
    Flags.test_eq_getLsbD _ (by decide)]
  simp only [Flags.CF, Flags.ZF, Flags.SF, Flags.OF]
  by_cases h11 : k = 11
  · subst h11
    rfl
  · by_cases h0 : k = 0
    · subst h0
      rfl
    · rw [if_neg h11, if_neg h0]
      rfl

/-- Setting all four flags is what the CPU does. -/
theorem withResult_eq (before : Flags) (r : Result) :
    withResult before r
      = applyALUResultToFlags before (ALU.makeResult r.value r.carry r.overflow) := by
  rw [withResult, withFlags_eq_set]
  rfl

theorem packed_eq (flags : Flags) : packed flags = packFlags flags := by
  unfold packed packFlags
  cases flags.zero <;> cases flags.sign <;> cases flags.carry <;> cases flags.overflow <;> decide

/-- The FLAGS of a frame word are the FLAGS the CPU restores. -/
theorem unpacked_eq (before : Flags) (v : Word) : unpacked before v = restoreFlags before v := by
  have hbit : ∀ k, k < 64 → ((v &&& 1#64 <<< k) != 0) = v.getLsbD k := by
    intro k hk
    rw [← BitVec.twoPow_eq, BitVec.and_twoPow]
    cases v.getLsbD k
    · rfl
    · have : BitVec.twoPow 64 k ≠ 0#64 := by
        intro h0
        have := congrArg (fun v => v.getLsbD k) h0
        simp [hk] at this
      simpa using this
  rw [unpacked, withFlags_eq_set, restoreFlags, hbit 0 (by omega), hbit 1 (by omega),
    hbit 2 (by omega), hbit 3 (by omega)]

/-! ## The ALU -/

/-- `ALU::add` is the sum of the reference. -/
theorem add_eq (lhs rhs : Word) :
    ALU.add lhs rhs = ALU.makeResult (add lhs rhs).value (add lhs rhs).carry (add lhs rhs).overflow := by
  have hv : lhs + rhs = BitVec.ofInt 64 (lhs.toInt + rhs.toInt) := by
    rw [BitVec.ofInt_add, BitVec.ofInt_toInt, BitVec.ofInt_toInt]
  have hc : decide ((lhs + rhs).toNat < lhs.toNat) = decide (2 ^ 64 ≤ lhs.toNat + rhs.toNat) := by
    rw [decide_eq_decide, BitVec.toNat_add]
    have := lhs.isLt
    have := rhs.isLt
    omega
  have ho : addSignedOverflow lhs.toInt rhs.toInt = overflows (lhs.toInt + rhs.toInt) := by
    have h1 := BitVec.le_toInt lhs
    have h2 := BitVec.toInt_lt (x := lhs)
    have h3 := BitVec.le_toInt rhs
    have h4 := BitVec.toInt_lt (x := rhs)
    rw [Bool.eq_iff_iff]
    simp only [addSignedOverflow, overflows, Bool.or_eq_true, decide_eq_true_eq,
      Bool.not_eq_true', decide_eq_false_iff_not]
    simp only [int64Max, int64Min]
    omega
  simp only [ALU.add, add, hc, ho, ← hv]

/-- `ALU::sub` is the difference of the reference. -/
theorem sub_eq (lhs rhs : Word) :
    ALU.sub lhs rhs = ALU.makeResult (sub lhs rhs).value (sub lhs rhs).carry (sub lhs rhs).overflow := by
  have hv : lhs - rhs = BitVec.ofInt 64 (lhs.toInt - rhs.toInt) := by
    apply BitVec.eq_of_toInt_eq
    rw [BitVec.toInt_sub, BitVec.toInt_ofInt]
  have ho : subSignedOverflow lhs.toInt rhs.toInt = overflows (lhs.toInt - rhs.toInt) := by
    have h1 := BitVec.le_toInt lhs
    have h2 := BitVec.toInt_lt (x := lhs)
    have h3 := BitVec.le_toInt rhs
    have h4 := BitVec.toInt_lt (x := rhs)
    rw [Bool.eq_iff_iff]
    simp only [subSignedOverflow, overflows, Bool.not_eq_true', decide_eq_false_iff_not]
    split_ifs
    · rw [decide_eq_true_eq, int64Min]
      omega
    · rw [decide_eq_true_eq, int64Max]
      omega
    · simp only [false_iff, not_not]
      omega
  simp only [ALU.sub, sub, ho, ← hv]

/-- `ALU::mul` is the product of the reference, with the overflow that its own test finds. -/
theorem mul_eq [LongDouble] (lhs rhs : Word) :
    ALU.mul lhs rhs = ALU.makeResult
      (mul (fun x y => mulSignedOverflow x.toInt y.toInt) lhs rhs).value
      (mulSignedOverflow lhs.toInt rhs.toInt) (mulSignedOverflow lhs.toInt rhs.toInt) := by
  have hv : lhs * rhs = BitVec.ofInt 64 (lhs.toInt * rhs.toInt) := by
    rw [BitVec.ofInt_mul, BitVec.ofInt_toInt, BitVec.ofInt_toInt]
  simp only [ALU.mul, mul, ← hv]

/-- A quotient of `ALU::div` is the quotient of the reference. -/
theorem div_eq {lhs rhs : Word} {r : ALUResult} (h : ALU.div lhs rhs = .ok r) :
    ∃ result, div lhs rhs = some result
      ∧ r = ALU.makeResult result.value result.carry result.overflow := by
  unfold ALU.div at h
  split_ifs at h with hzero hmin
  obtain rfl := Except.ok.inj h
  have hne : rhs.toInt ≠ 0 := fun h0 => hzero (BitVec.eq_of_toInt_eq h0)
  have hside : lhs ≠ BitVec.intMin 64 ∨ rhs ≠ -1#64 := by
    by_contra hc
    obtain ⟨rfl, rfl⟩ := not_or.mp hc |>.imp not_not.mp not_not.mp
    exact hmin ⟨by decide, by decide⟩
  have hdiv : (lhs.sdiv rhs).toInt = lhs.toInt.tdiv rhs.toInt :=
    BitVec.toInt_sdiv_of_ne_or_ne lhs rhs hside
  have hrange : overflows (lhs.toInt.tdiv rhs.toInt) = false := by
    rw [← hdiv]
    have h1 := BitVec.le_toInt (lhs.sdiv rhs)
    have h2 := BitVec.toInt_lt (x := lhs.sdiv rhs)
    simp only [overflows, Bool.not_eq_false', decide_eq_true_eq]
    omega
  refine ⟨⟨lhs.sdiv rhs, false, false⟩, ?_, rfl⟩
  rw [div, if_neg (by simp [hne, hrange]), ← hdiv, BitVec.ofInt_toInt]

end Reference

namespace CPU

open Reference (deviceAt mayAccess dataRead dataWrite mayExecute stackRange slotsInside withSp)

variable {m : Setup W} {s s' : Core W}

/-! ## Data accesses -/

/-- The bus is consulted exactly where the reference finds a device. -/
theorem deviceAt_eq (m : Setup W) (address : ℕ) :
    (busAt m address = none ∧ deviceAt m address = none)
    ∨ ∃ bus mapping, busAt m address = some bus ∧ deviceAt m address = some mapping
      ∧ bus.findMapping address = .ok mapping := by
  unfold busAt deviceAt
  cases m.mmioBus with
  | none => exact .inl ⟨rfl, rfl⟩
  | some bus =>
    rw [Option.bind_some, show (fun mapping : MMIOMapping W =>
      decide (mapping.base ≤ address ∧ address < mapping.base + mapping.size))
        = fun mapping => mapping.contains address from rfl]
    cases hf : bus.mappings.find? fun mapping => mapping.contains address with
    | none =>
      have hno : bus.hasDeviceAt address = false := by
        rw [MMIOBus.hasDeviceAt, List.any_eq_false]
        exact List.find?_eq_none.mp hf
      exact .inl ⟨by simp [Option.filter, hno], rfl⟩
    | some mapping =>
      have hyes : bus.hasDeviceAt address = true := by
        rw [MMIOBus.hasDeviceAt, List.any_eq_true]
        exact ⟨mapping, List.mem_of_find?_eq_some hf,
          List.find?_some (p := fun mapping : MMIOMapping W => mapping.contains address) hf⟩
      exact .inr ⟨bus, mapping, by simp [Option.filter, hyes], rfl, by rw [MMIOBus.findMapping, hf]⟩

/-- The check of a data address accepts what the reference accepts. -/
theorem requireDataMemoryAccess_eq_ok {address : ℕ} {operation : Str} {u : Unit} :
    requireDataMemoryAccess address operation s = (.ok u, s') ↔ mayAccess s address ∧ s = s' := by
  simp only [requireDataMemoryAccess, get_bind_eq_ok, require_eq_ok, mayAccess, Bool.or_eq_true,
    Bool.not_eq_true', isUserDataRange_iff, CPUState.isUserMode, beq_eq_false_iff_ne, ne_eq,
    eq_comm (a := s)]
  refine and_congr_left fun _ => ?_
  rw [← imp_iff_not_or]

/-- A data read that returns is the data read of the reference. -/
theorem readDataMemory_conforms {address : ℕ} {v : Word}
    (h : readDataMemory m address s = (.ok v, s')) :
    ∃ world, dataRead m s s.world address = some (v, world) ∧ s' = { s with world := world } := by
  obtain ⟨u, s1, haccess, h⟩ := bind_eq_ok.mp h
  obtain ⟨hmay, rfl⟩ := requireDataMemoryAccess_eq_ok.mp haccess
  rw [dataRead, if_neg (not_not.mpr hmay)]
  rcases deviceAt_eq m address with ⟨hbus, hdevice⟩ | ⟨bus, mapping, hbus, hdevice, hfind⟩
  · rw [hbus] at h
    rw [hdevice]
    obtain ⟨hread, rfl⟩ := Prod.ext_iff.mp h
    obtain ⟨hle, rfl⟩ := Memory.read_eq_ok.mp hread
    exact ⟨s.world, by rw [if_pos hle], rfl⟩
  · simp only [hbus, MMIOBus.read, zoom_apply, bind_apply, lift_apply, hfind] at h
    simp only [hdevice]
    obtain ⟨h1, h2⟩ := Prod.ext_iff.mp h
    simp only [Core.worldRef] at h1 h2
    generalize mapping.device.read (address - mapping.base) s.world = out at h1 h2 ⊢
    rcases out with ⟨e | v', w⟩
    · cases h1
    · cases h1
      exact ⟨w, rfl, h2.symm⟩

/-- A data write that returns is the data write of the reference. -/
theorem writeDataMemory_conforms {address : ℕ} {v : Word} {u : Unit}
    (h : writeDataMemory m address v s = (.ok u, s')) :
    ∃ memory world, dataWrite m s s.world address v = some (memory, world)
      ∧ s' = { s with world := world, state := { s.state with memory := memory } } := by
  obtain ⟨_, s1, haccess, h⟩ := bind_eq_ok.mp h
  obtain ⟨hmay, rfl⟩ := requireDataMemoryAccess_eq_ok.mp haccess
  rw [dataWrite, if_neg (not_not.mpr hmay)]
  rcases deviceAt_eq m address with ⟨hbus, hdevice⟩ | ⟨bus, mapping, hbus, hdevice, hfind⟩
  · rw [hbus] at h
    simp only [writeMemory_apply] at h
    rw [hdevice]
    cases hc : s.state.memory.checkRange address 8 with
    | error e => rw [hc] at h; cases (Prod.ext_iff.mp h).1
    | ok _ =>
      rw [hc] at h
      exact ⟨_, _, if_pos (Memory.checkRange_eq_ok.mp hc), (Prod.ext_iff.mp h).2.symm⟩
  · simp only [hbus, MMIOBus.write, zoom_apply, bind_apply, lift_apply, hfind] at h
    simp only [hdevice]
    obtain ⟨h1, h2⟩ := Prod.ext_iff.mp h
    simp only [Core.worldRef] at h1 h2
    generalize mapping.device.write (address - mapping.base) v s.world = out at h1 h2 ⊢
    rcases out with ⟨e | _, w⟩
    · cases h1
    · exact ⟨_, w, rfl, h2.symm⟩

/-! ## Stacks and code addresses -/

/-- The bounds of the active stack are those of the reference. -/
theorem stackRange_eq (s : Core W) : stackRange s = (activeStackBase s, activeStackEndExclusive s) := by
  unfold stackRange activeStackBase activeStackEndExclusive CPUState.isUserMode
  cases s.state.privilegeLevel <;> cases s.usingKernelInterruptStack <;> rfl

/-- A push that returns is the push of the reference. -/
theorem pushValue_conforms {v : Word} {u : Unit} (h : pushValue v s = (.ok u, s')) :
    Reference.push s v = some s' := by
  rw [pushValue_apply] at h
  cases hc : checkPush s with
  | error e => rw [hc] at h; cases (Prod.ext_iff.mp h).1
  | ok _ =>
    rw [hc] at h
    obtain ⟨⟨h1, h2, h3⟩, -⟩ := checkPush_eq_ok.mp hc
    have hin : slotsInside (stackRange s) s.state.sp 1 := by
      rw [stackRange_eq]
      exact ⟨h1, h2, h3⟩
    rw [Reference.push, if_pos hin]
    exact congrArg some (Prod.ext_iff.mp h).2

/-- A pop that returns is the pop of the reference. -/
theorem popValue_conforms {v : Word} (h : popValue s = (.ok v, s')) :
    Reference.pop s = some (v, s') := by
  rw [popValue_apply] at h
  cases hc : topValue s with
  | error e => rw [hc] at h; cases (Prod.ext_iff.mp h).1
  | ok top =>
    rw [hc] at h
    obtain ⟨⟨h1, h2, h3⟩, -, htop⟩ := topValue_eq_ok.mp hc
    have hin : s.state.sp ≥ 8 ∧ slotsInside (stackRange s) (s.state.sp - 8) 1 := by
      rw [stackRange_eq]
      exact ⟨by omega, by simp only; omega, by simp only; omega, by simp only; omega⟩
    obtain ⟨hv, rfl⟩ := Prod.ext_iff.mp h
    rw [Reference.pop, if_pos hin, ← htop, Except.ok.inj hv]
    rfl

/-- Stack operations leave PC and the halted flag alone. -/
theorem push_same {v : Word} {t : Core W} (h : Reference.push s v = some t) :
    t.state.pc = s.state.pc ∧ t.state.halted = s.state.halted := by
  unfold Reference.push at h
  split_ifs at h
  obtain rfl := Option.some.inj h
  exact ⟨rfl, rfl⟩

/-- A pop leaves PC and the halt flag alone. -/
theorem pop_same {v : Word} {t : Core W} (h : Reference.pop s = some (v, t)) :
    t.state.pc = s.state.pc ∧ t.state.halted = s.state.halted := by
  unfold Reference.pop at h
  split_ifs at h
  obtain ⟨-, rfl⟩ := Prod.ext_iff.mp (Option.some.inj h)
  exact ⟨rfl, rfl⟩

/-- A jump target the CPU accepts is one the reference accepts. -/
theorem mayExecute_of_ok {address : ℕ} {privilege : PrivilegeLevel} {u : Unit}
    (h : requireExecutionAddress m address privilege = .ok u) : mayExecute m privilege address := by
  intro huser
  unfold requireExecutionAddress at h
  split_ifs at h with h1 h2
  · exact absurd huser h1
  · exact ⟨h2.1, h2.2.1, h2.2.2.1⟩

/-! ## Interrupt frames -/

/-- A write of a word to RAM returns exactly when the word is inside it. -/
theorem writeMemory_eq_ok {address : ℕ} {v : Word} {u : Unit} :
    writeMemory address v s = (.ok u, s')
      ↔ address + 8 ≤ s.state.memory.size ∧ s' = s.store address v := by
  rw [writeMemory_apply]
  cases hc : s.state.memory.checkRange address 8 with
  | error e =>
    have : ¬ address + 8 ≤ s.state.memory.size := fun h => by
      rw [Memory.checkRange_eq_ok.mpr h] at hc
      cases hc
    simp [this]
  | ok _ => simp [Memory.checkRange_eq_ok.mp hc, eq_comm]

/-- The base of a frame is that of the reference, and its slots are free. -/
theorem interruptFrameBase_conforms {base : ℕ} (h : interruptFrameBase s = (.ok base, s')) :
    s = s' ∧ base = (if s.state.privilegeLevel = .user then s.kernelStackPointer else s.state.sp)
      ∧ slotsInside (if s.state.privilegeLevel = .user then (0xFA0, 0x1000) else stackRange s)
        base 4 := by
  simp only [interruptFrameBase, get_bind_eq_ok] at h
  split_ifs at h ⊢ with huser
  · simp only [Exec.bind_eq_ok, lift_eq_ok, pure_eq_ok] at h
    obtain ⟨_, _, ⟨-, rfl⟩, _, _, ⟨hpush, rfl⟩, rfl, rfl⟩ := h
    obtain ⟨⟨h1, h2, -⟩, h3⟩ := requireStackPushSlotsAt_eq_ok.mp hpush
    exact ⟨rfl, rfl, h1, h2, h3⟩
  · simp only [requireStackPushSlots, ↓get_bind_eq_ok, Exec.bind_eq_ok, lift_eq_ok, pure_eq_ok] at h
    obtain ⟨_, _, ⟨hpush, rfl⟩, rfl, rfl⟩ := h
    obtain ⟨⟨h1, h2, -⟩, h3⟩ := requireStackPushSlotsAt_eq_ok.mp hpush
    rw [stackRange_eq]
    exact ⟨rfl, rfl, h1, h2, h3⟩

/-- A frame that the CPU pushes is the frame of the reference. -/
theorem pushInterruptFrame_conforms {returnAddress : ℕ} {u : Unit}
    (h : pushInterruptFrame returnAddress s = (.ok u, s')) :
    Reference.enter s returnAddress = some s' := by
  unfold pushInterruptFrame at h
  simp only [↓get_bind_eq_ok, Exec.bind_eq_ok, writeMemory_eq_ok, modify_eq_ok,
    setStackPointer] at h
  obtain ⟨base, _, hbase, _, _, ⟨-, rfl⟩, _, _, ⟨-, rfl⟩, _, _, ⟨-, rfl⟩, _, _, ⟨-, rfl⟩, _, _,
    rfl, rfl⟩ := h
  obtain ⟨rfl, rfl, hslots⟩ := interruptFrameBase_conforms hbase
  rw [Reference.enter, if_pos hslots]
  cases hp : s.state.privilegeLevel <;> cases hk : s.usingKernelInterruptStack <;>
    simp [Core.store, Core.updateState, Reference.Frame.write, Reference.packed_eq, hp, hk,
      kStackSlotSize, kInterruptFrameSize, kInterruptFrameSlotCount, privilegeLevelToRaw,
      Word.ofSize]

/-- The check of a restored stack pointer changes nothing. -/
theorem requireRestoredStackPointer_same {sp : ℕ} {privilege : PrivilegeLevel} {u : Unit}
    (h : requireRestoredStackPointer sp privilege s = (.ok u, s')) : s = s' := by
  unfold requireRestoredStackPointer at h
  simp only [↓get_bind_eq_ok] at h
  split_ifs at h <;> exact (lift_eq_ok.mp h).2

/-- A word is accepted as a size exactly when it is not negative. -/
theorem checkedSize_eq_ok_iff {v : Word} {error : Str} {n : ℕ} :
    checkedSize v error = .ok n ↔ 0 ≤ v.toInt ∧ n = v.toNat := by
  unfold checkedSize
  split_ifs with h
  · simp only [false_iff, not_and]
    omega
  · simp only [Except.ok.injEq, eq_comm (a := v.toNat)]
    exact ⟨fun hn => ⟨by omega, hn⟩, fun hn => hn.2⟩

/-- A saved privilege level the CPU accepts is that of the reference. -/
theorem savedPrivilege_of_ok {v : Word} {privilege : PrivilegeLevel}
    (h : privilegeLevelFromRaw v = .ok privilege) : Reference.savedPrivilege v = some privilege := by
  unfold privilegeLevelFromRaw at h
  unfold Reference.savedPrivilege
  split_ifs at h ⊢ <;> exact congrArg some (Except.ok.inj h)

/-- A computation that first reads a word of RAM. -/
theorem readMemory_bind_eq_ok {α : Type} {address : ℕ} {f : Word → Op W α} {a : α} :
    (readMemory address >>= f) s = (.ok a, s')
      ↔ address + 8 ≤ s.state.memory.size
        ∧ f (leWord 64 (s.state.memory.slice address 8)) s = (.ok a, s') := by
  rw [readMemory, bind_bind_eq]
  show (Exec.lift (s.state.memory.read address) >>= f) s = _ ↔ _
  rw [lift_bind_eq_ok]
  simp only [Memory.read_eq_ok, and_assoc, exists_and_left, exists_eq_left]

/-- A return from an interrupt is the return of the reference. -/
theorem restoreInterruptFrame_conforms {error : Str} {u : Unit}
    (h : restoreInterruptFrame m error false s = (.ok u, s')) :
    Reference.leave m s = some s' := by
  simp only [restoreInterruptFrame, requireStackPopSlots, bind_bind_eq, ↓get_bind_eq_ok,
    ↓lift_bind_eq_ok, ↓readMemory_bind_eq_ok, Bool.false_and, Bool.not_false, if_true] at h
  obtain ⟨_, hpop, -, -, -, -, privilege, hprivilege, pc, hpc, sp, hsp, _, hexec, h⟩ := h
  obtain ⟨_, _, hrestored, h⟩ := Exec.bind_eq_ok.mp h
  obtain rfl := requireRestoredStackPointer_same hrestored
  obtain ⟨hnonneg, rfl⟩ := checkedSize_eq_ok_iff.mp hpc
  obtain ⟨hnonneg', rfl⟩ := checkedSize_eq_ok_iff.mp hsp
  obtain ⟨⟨h1, h2, h3⟩, h4⟩ := requireStackPopSlotsAt_eq_ok.mp hpop
  have hslots : s.state.sp ≥ 32 ∧ slotsInside (stackRange s) (s.state.sp - 32) 4 := by
    rw [stackRange_eq]
    simp only [kInterruptFrameSlotCount] at h4
    exact ⟨by omega, by simp only; omega, by simp only; omega, by simp only; omega⟩
  have hsaved : Reference.savedPrivilege
      (Reference.Frame.read s.state.memory (s.state.sp - 32)).privilege = some privilege :=
    savedPrivilege_of_ok hprivilege
  have hguard := And.intro hslots.1 (And.intro hslots.2 (And.intro hnonneg (And.intro hnonneg'
    (mayExecute_of_ok hexec))))
  simp only [Reference.leave, hsaved, Option.bind_eq_bind, Option.bind_some]
  refine (if_pos hguard).trans ?_
  simp only [modifyFlags, modifyState, ↓modify_bind_eq_ok] at h
  -- Returning to User mode leaves the interrupt stack; otherwise the stack pointer moves on it.
  cases privilege with
  | user =>
    simp only [if_true] at h
    rw [← modify_eq_ok.mp h, Reference.unpacked_eq]
    cases hk : s.usingKernelInterruptStack <;>
      simp [Core.updateState, hk, Reference.Frame.read, kInterruptFrameSize, kStackSlotSize,
        kInterruptFrameSlotCount]
  | kernel =>
    simp only [reduceCtorEq, if_false, setStackPointer] at h
    rw [← modify_eq_ok.mp h, Reference.unpacked_eq]
    cases hk : s.usingKernelInterruptStack <;>
      simp [Core.updateState, hk, Reference.Frame.read, kInterruptFrameSize, kStackSlotSize,
        kInterruptFrameSlotCount]

end CPU

/-! ## Operands -/

/-- The operand of the reference that an operand stands for. -/
structure OperandView.Denotes (v : OperandView) (o : Reference.Operand) : Prop where
  register : ∀ reg, v.register = .ok reg → o = .register reg
  address : ∀ registers a, v.address registers = .ok a → o.asAddress registers = some a
  value : ∀ registers w, v.source registers = .ok (.inl w) →
    (∃ reg, o = .register reg ∧ w = registers reg) ∨ o = .immediate w
  location : ∀ registers a, v.source registers = .ok (.inr a) →
    o.asAddress registers = some a ∧ ((∃ n, o = .memory n) ∨ ∃ reg, o = .indirect reg)
  target : ∀ a, v.target = .ok a → o = .code a

/-- The instruction of the reference that an instruction stands for. -/
structure InstructionView.Denotes (i : InstructionView) (r : Reference.Instruction) : Prop where
  opcode : i.opcode = r.opcode
  noOperand : i.noOperand = .ok () → r.operandCount = some 0
  oneOperand : i.oneOperand = .ok () → r.operandCount = some 1
  twoOperands : i.twoOperands = .ok () → r.operandCount = some 2
  dst : i.dst.Denotes r.dst
  src : i.src.Denotes r.src

namespace CPU

open Reference (mayExecute)

variable {m : Setup W} {s s' : Core W} {v : OperandView} {o : Reference.Operand}

/-- Reading an operand gives the value that the operand denotes. -/
theorem readSource_conforms (hv : v.Denotes o) {w : Word} (h : readSource m v s = (.ok w, s')) :
    ∃ world, Reference.value m s s.world o = some (w, world)
      ∧ s' = { s with world := world } := by
  unfold readSource at h
  simp only [↓get_bind_eq_ok, ↓lift_bind_eq_ok] at h
  obtain ⟨source, hsource, h⟩ := h
  cases source with
  | inl w' =>
    obtain ⟨rfl, rfl⟩ := pure_eq_ok.mp h
    refine ⟨s.world, ?_, rfl⟩
    rcases hv.value _ _ hsource with ⟨reg, rfl, rfl⟩ | rfl <;> rfl
  | inr a =>
    obtain ⟨world, hread, rfl⟩ := readDataMemory_conforms h
    refine ⟨world, ?_, rfl⟩
    obtain ⟨haddress, ⟨n, rfl⟩ | ⟨reg, rfl⟩⟩ := hv.location _ _ hsource
    · simp only [Reference.value, haddress, Option.bind_eq_bind, Option.bind_some, hread]
    · simp only [Reference.value, haddress, Option.bind_eq_bind, Option.bind_some, hread]

/-- Reading a register operand reads that register. -/
theorem readSource_register {reg : RegisterName} (hv : v.Denotes (.register reg)) {w : Word}
    (h : readSource m v s = (.ok w, s')) : w = s.state.registers reg ∧ s' = s := by
  obtain ⟨world, hvalue, rfl⟩ := readSource_conforms hv h
  obtain ⟨rfl, rfl⟩ := Prod.ext_iff.mp (Option.some.inj hvalue)
  exact ⟨rfl, rfl⟩

/-- A computation that first takes the address of an operand. -/
theorem readAddress_bind_eq_ok {α : Type} {f : ℕ → Op W α} {a : α} :
    (readAddress v >>= f) s = (.ok a, s')
      ↔ ∃ address, v.address s.state.registers = .ok address ∧ f address s = (.ok a, s') := by
  rw [readAddress, bind_bind_eq]
  exact lift_bind_eq_ok

/-- A computation that first asks for a register operand. -/
theorem requireRegister_bind_eq_ok {α : Type} {f : Unit → Op W α} {a : α} :
    (requireRegister v >>= f) s = (.ok a, s')
      ↔ (∃ reg, v.register = .ok reg) ∧ f () s = (.ok a, s') := by
  rw [requireRegister, bind_bind_eq, lift_bind_eq_ok]
  exact ⟨fun ⟨reg, hreg, h⟩ => ⟨⟨reg, hreg⟩, h⟩, fun ⟨⟨reg, hreg⟩, h⟩ => ⟨reg, hreg, h⟩⟩

/-- A running CPU goes on to the next instruction. -/
theorem advance_conforms {size : ℕ} {u : Unit} (h : advanceUnlessHalted size s = (.ok u, s'))
    (hs : s.state.halted = false) : s' = Reference.goTo s (s.state.pc + size) := by
  rw [← modify_eq_ok.mp h, Reference.goTo, Core.updateState]
  simp only [hs, Bool.not_false, if_true]

/-! ## Instructions -/

section Instructions

variable {e : Engine} {i : InstructionView} {r : Reference.Instruction} {u : Unit}

/-- The last part of a move is the move of the reference. -/
theorem finishMove_conforms {reg : RegisterName} (hreg : v.register = .ok reg) {w : Word}
    (h : finishMove e v w s = (.ok u, s')) (hs : s.state.halted = false) :
    s' = Reference.move s reg w (s.state.pc + e.size) := by
  simp only [finishMove, writeRegister, hreg, bind_bind_eq, setRegister, modifyFlags, modifyState,
    ↓lift_bind_eq_ok, ↓modify_bind_eq_ok, Except.ok.injEq, exists_eq_left'] at h
  rw [advance_conforms h hs, Reference.move, Reference.withZS_eq]
  rfl

/-- The last part of an arithmetic instruction is the assignment of the reference. -/
theorem finishALU_conforms {reg : RegisterName} (hreg : v.register = .ok reg)
    (result : Reference.Result)
    (h : finishALU e v (ALU.makeResult result.value result.carry result.overflow) s = (.ok u, s'))
    (hs : s.state.halted = false) :
    s' = Reference.assign s reg result (s.state.pc + e.size) := by
  simp only [finishALU, writeRegister, hreg, bind_bind_eq, setRegister, modifyFlags, modifyState,
    ↓lift_bind_eq_ok, ↓modify_bind_eq_ok, Except.ok.injEq, exists_eq_left'] at h
  rw [advance_conforms h hs, Reference.assign, Reference.withResult_eq]
  rfl

/-- An arithmetic instruction conforms when its operation on words does. -/
theorem performALU_conforms (hs : s.state.halted = false) (hi : i.Denotes r)
    {op : Word → Word → Except Str ALUResult} {rop : Word → Word → Option Reference.Result}
    (hop : ∀ lhs rhs result, op lhs rhs = .ok result → ∃ res, rop lhs rhs = some res
      ∧ result = ALU.makeResult res.value res.carry res.overflow)
    (h : performALU op e m i s = (.ok u, s')) :
    r.operandCount = some 2
      ∧ Reference.arithmetic rop m (s.state.pc + e.size) r s = some s' := by
  unfold performALU at h
  simp only [↓lift_bind_eq_ok, ↓requireRegister_bind_eq_ok] at h
  obtain ⟨_, hcount, ⟨reg, hreg⟩, h⟩ := h
  obtain ⟨lhs, s1, hlhs, h⟩ := Exec.bind_eq_ok.mp h
  obtain ⟨rhs, s2, hrhs, h⟩ := Exec.bind_eq_ok.mp h
  simp only [↓lift_bind_eq_ok] at h
  obtain ⟨result, hresult, h⟩ := h
  have hdst := hi.dst.register reg hreg
  obtain ⟨rfl, rfl⟩ := readSource_register (hdst ▸ hi.dst) hlhs
  obtain ⟨world, hvalue, rfl⟩ := readSource_conforms hi.src hrhs
  obtain ⟨res, hres, rfl⟩ := hop _ _ _ hresult
  have hafter := finishALU_conforms hreg res h hs
  refine ⟨hi.twoOperands hcount, ?_⟩
  simp only [Reference.arithmetic, hdst, Reference.Operand.asRegister, hvalue, hres,
    Option.bind_eq_bind, Option.bind_some, hafter]

/-- A comparison conforms when its operation on words does. -/
theorem performComparison_conforms (hs : s.state.halted = false) (hi : i.Denotes r)
    {op : Word → Word → ALUResult} {rop : Word → Word → Reference.Result}
    (hop : ∀ lhs rhs, op lhs rhs = ALU.makeResult (rop lhs rhs).value (rop lhs rhs).carry
      (rop lhs rhs).overflow)
    (h : performComparison op e m i s = (.ok u, s')) :
    r.operandCount = some 2
      ∧ Reference.comparison rop m (s.state.pc + e.size) r s = some s' := by
  unfold performComparison at h
  simp only [↓lift_bind_eq_ok] at h
  obtain ⟨_, hcount, h⟩ := h
  obtain ⟨lhs, s1, hlhs, h⟩ := Exec.bind_eq_ok.mp h
  obtain ⟨rhs, s2, hrhs, h⟩ := Exec.bind_eq_ok.mp h
  obtain ⟨world, hvalue, rfl⟩ := readSource_conforms hi.dst hlhs
  obtain ⟨world', hvalue', rfl⟩ := readSource_conforms hi.src hrhs
  have hvalue' : Reference.value m s world r.src = some (rhs, world') := hvalue'
  simp only [modifyFlags, modifyState, ↓modify_bind_eq_ok, hop, ← Reference.withResult_eq] at h
  have hafter := advance_conforms h hs
  refine ⟨hi.twoOperands hcount, ?_⟩
  simp only [Reference.comparison, hvalue, hvalue', Option.bind_eq_bind, Option.bind_some, hafter]
  rfl

/-- A jump goes to the code address that its operand denotes. -/
theorem performJump_conforms (hv : v.Denotes o) (h : performJump m v s = (.ok u, s')) :
    Reference.jump m o s = some s' := by
  unfold performJump setPcForExecution at h
  simp only [↓lift_bind_eq_ok, ↓get_bind_eq_ok] at h
  obtain ⟨target, htarget, _, hexec, h⟩ := h
  rw [Reference.jump, hv.target _ htarget]
  simp only [Reference.Operand.asCode, Option.bind_eq_bind, Option.bind_some]
  rw [if_pos (mayExecute_of_ok hexec), ← modify_eq_ok.mp h]
  rfl

/-- A conditional jump goes where the reference goes, taken or not. -/
theorem performBranch_conforms (hs : s.state.halted = false) (hi : i.Denotes r)
    {taken : Flags → Bool} (h : performBranch taken e m i s = (.ok u, s')) :
    r.operandCount = some 1
      ∧ Reference.branch (taken s.state.flags) m (s.state.pc + e.size) r s = some s' := by
  unfold performBranch at h
  simp only [↓lift_bind_eq_ok, ↓get_bind_eq_ok] at h
  obtain ⟨_, hcount, h⟩ := h
  refine ⟨hi.oneOperand hcount, ?_⟩
  cases ht : taken s.state.flags with
  | true =>
    rw [ht] at h
    exact performJump_conforms hi.dst h
  | false =>
    rw [ht] at h
    rw [advance_conforms h hs]
    rfl

/-- A call pushes the next address and goes to its target. -/
theorem performCall_conforms (hi : i.Denotes r) (h : performCall e m i s = (.ok u, s')) :
    r.operandCount = some 1 ∧ ∃ target pushed, r.dst = .code target
      ∧ Reference.push s (BitVec.ofNat 64 (s.state.pc + e.size)) = some pushed
      ∧ mayExecute m s.state.privilegeLevel target ∧ s' = Reference.goTo pushed target := by
  unfold performCall at h
  simp only [↓lift_bind_eq_ok, ↓get_bind_eq_ok] at h
  obtain ⟨_, hcount, target, htarget, _, hexec, _, -, h⟩ := h
  obtain ⟨_, pushed, hpush, h⟩ := Exec.bind_eq_ok.mp h
  exact ⟨hi.oneOperand hcount, target, pushed, hi.dst.target _ htarget, pushValue_conforms hpush,
    mayExecute_of_ok hexec, (modify_eq_ok.mp h).symm⟩

/-- A return goes to the word that it pops, which is not negative. -/
theorem performRet_conforms (hi : i.Denotes r) (h : performRet e m i s = (.ok u, s')) :
    r.operandCount = some 0 ∧ ∃ address popped, Reference.pop s = some (address, popped)
      ∧ 0 ≤ address.toInt ∧ mayExecute m s.state.privilegeLevel address.toNat
      ∧ s' = Reference.goTo popped address.toNat := by
  unfold performRet at h
  simp only [↓lift_bind_eq_ok] at h
  obtain ⟨_, hcount, h⟩ := h
  obtain ⟨top, s1, hpeek, h⟩ := Exec.bind_eq_ok.mp h
  rw [peekValue_apply] at hpeek
  obtain ⟨htop, rfl⟩ : topValue s = .ok top ∧ s = s1 := Prod.ext_iff.mp hpeek
  simp only [↓lift_bind_eq_ok, ↓get_bind_eq_ok] at h
  obtain ⟨address, haddress, _, hexec, h⟩ := h
  obtain ⟨hnonneg, rfl⟩ := checkedSize_eq_ok_iff.mp haddress
  obtain ⟨popped, s2, hpop, h⟩ := Exec.bind_eq_ok.mp h
  -- The word popped is the word that was checked.
  have hsame : popped = top := by
    rw [popValue_apply, htop] at hpop
    exact (Except.ok.inj (Prod.ext_iff.mp hpop).1).symm
  subst hsame
  exact ⟨hi.noOperand hcount, popped, s2, popValue_conforms hpop, hnonneg, mayExecute_of_ok hexec,
    (modify_eq_ok.mp h).symm⟩

/-- `EI` and `DI` set the flag of the controller, as the reference does. -/
theorem setInterruptsEnabled_conforms {enabled : Bool} {missing : Str}
    (hs : s.state.halted = false)
    (h : (setInterruptsEnabled m enabled missing >>= fun _ => advanceUnlessHalted e.size) s
      = (.ok u, s')) :
    Reference.setEnabled enabled m (s.state.pc + e.size) s = some s' := by
  unfold setInterruptsEnabled at h
  unfold Reference.setEnabled
  cases hr : m.interruptController with
  | none =>
    rw [hr] at h
    cases (Prod.ext_iff.mp h).1
  | some controller =>
    rw [hr] at h
    exact congrArg some (advance_conforms h hs).symm

/-- A word is accepted as a vector exactly when it is between 0 and 255. -/
theorem interruptVector_eq_ok {value : Word} {vector : UInt8}
    (h : interruptVector value = .ok vector) :
    (0 ≤ value.toInt ∧ value.toInt ≤ 255) ∧ vector = UInt8.ofNat value.toNat
      ∧ Word.ofSize vector.toNat = value := by
  unfold interruptVector at h
  split_ifs at h with hrange
  obtain rfl := Except.ok.inj h
  have hnonneg : 0 ≤ value.toInt := by omega
  have hnat : (value.toNat : ℤ) = value.toInt := by
    have hmsb : ¬ 2 ^ 64 ≤ 2 * value.toNat := by
      rw [← BitVec.toInt_neg_iff]
      omega
    rw [BitVec.toInt_eq_toNat_of_lt (by omega)]
  have hlt : value.toNat < 256 := by omega
  refine ⟨by omega, rfl, ?_⟩
  rw [Word.ofSize, UInt8.toNat_ofNat', Nat.mod_eq_of_lt hlt, BitVec.ofNat_toNat, BitVec.setWidth_eq]

/-- Without a host handler, `INT` enters the handler of its vector. -/
theorem performInt_conforms (hi : i.Denotes r) (hm : m.softwareInterruptHandler = none)
    (h : performInt e m i s = (.ok u, s')) :
    r.operandCount = some 1
      ∧ Reference.interrupt m (s.state.pc + e.size) r s = some s' := by
  unfold performInt at h
  simp only [↓lift_bind_eq_ok] at h
  obtain ⟨_, hcount, h⟩ := h
  refine ⟨hi.oneOperand hcount, ?_⟩
  cases hr : m.interruptController with
  | none =>
    rw [hr] at h
    cases (Prod.ext_iff.mp h).1
  | some controller =>
    rw [hr] at h
    obtain ⟨value, s1, hvalue, h⟩ := Exec.bind_eq_ok.mp h
    simp only [↓lift_bind_eq_ok, ↓get_bind_eq_ok] at h
    obtain ⟨vector, hvector, h⟩ := h
    obtain ⟨world, hread, rfl⟩ := readSource_conforms hi.dst hvalue
    obtain ⟨hrange, hvec, hword⟩ := interruptVector_eq_ok hvector
    -- No host handler takes the vector, so the vector table decides.
    have hservice : ∀ t a, (serviceHostSoftwareInterrupt m vector a) t = (.ok false, t) := by
      intro t a
      rw [serviceHostSoftwareInterrupt, hm]
      rfl
    rw [bind_of_ok (hservice _ _)] at h
    simp only [Bool.false_eq_true, if_false, enterVectorHandler, ↓get_bind_eq_ok,
      ↓lift_bind_eq_ok] at h
    obtain ⟨handler, hhandler, h⟩ := h
    obtain ⟨_, s2, hrequire, h⟩ := Exec.bind_eq_ok.mp h
    obtain ⟨-, rfl⟩ := require_eq_ok.mp hrequire
    obtain ⟨_, entered, henter, h⟩ := Exec.bind_eq_ok.mp h
    have htable : (controller.get world).vectorTable (UInt8.ofNat value.toNat) = some handler := by
      rw [← hvec]
      exact InterruptController.vectorHandler_eq_ok.mp hhandler
    simp only [Reference.interrupt, hr, hread, Option.bind_eq_bind, Option.bind_some,
      if_pos hrange, htable, pushInterruptFrame_conforms henter]
    simp only [setRegister, setPc, modifyState, ↓modify_bind_eq_ok, hword] at h
    exact congrArg some (modify_eq_ok.mp h)

/-- The privilege check refuses what the reference keeps to Kernel mode. -/
theorem requireInstructionPrivilege_eq_ok {opcode : Opcode}
    (h : requireInstructionPrivilege opcode s = (.ok u, s')) :
    ¬ (s.state.privilegeLevel = .user ∧ Reference.kernelOnly opcode = true) ∧ s = s' := by
  unfold requireInstructionPrivilege at h
  simp only [↓get_bind_eq_ok] at h
  cases hp : s.state.privilegeLevel with
  | kernel =>
    have hu : s.state.isUserMode = false := by simp [CPUState.isUserMode, hp]
    rw [hu] at h
    refine ⟨?_, (pure_eq_ok.mp h).2⟩
    rintro ⟨huser, -⟩
    cases huser
  | user =>
    have hu : s.state.isUserMode = true := by simp [CPUState.isUserMode, hp]
    rw [hu] at h
    cases opcode with
    | HALT | IRET | EI | DI => cases (Prod.ext_iff.mp h).1
    | _ => exact ⟨by simp [Reference.kernelOnly], (pure_eq_ok.mp h).2⟩

/-- Signed multiplication overflow as the ALU detects it. -/
def mulDetected [LongDouble] (lhs rhs : Word) : Bool := mulSignedOverflow lhs.toInt rhs.toInt

/-- With a 64-bit significand the detection is exact. -/
theorem mulDetected_eq [LongDouble] (h64 : LongDouble.mantDig = 64) (lhs rhs : Word) :
    mulDetected lhs rhs = Reference.overflows (lhs.toInt * rhs.toInt) := by
  have hl := BitVec.le_toInt lhs
  have hl' := BitVec.toInt_lt (x := lhs)
  have hr := BitVec.le_toInt rhs
  have hr' := BitVec.toInt_lt (x := rhs)
  have hexact : ∀ x : ℤ, x.natAbs < 2 ^ 64 → toLongDouble x = x := by
    intro x hx
    rw [toLongDouble, h64]
    exact roundNearestEven_of_lt hx
  unfold mulDetected mulSignedOverflow
  rw [hexact lhs.toInt (by omega), hexact rhs.toInt (by omega), hexact int64Max (by decide),
    hexact int64Min (by decide)]
  simp only [Reference.overflows]
  split_ifs with h0 h1 h2
  · rcases h0 with h0 | h0 <;> simp [h0]
  · rw [h1.1, h1.2]
    decide
  · rw [h2.1, h2.2]
    decide
  · generalize lhs.toInt * rhs.toInt = x
    rw [Bool.eq_iff_iff]
    simp only [Bool.or_eq_true, decide_eq_true_eq, Bool.not_eq_true', decide_eq_false_iff_not]
    simp only [int64Max, int64Min]
    by_cases hx : x.natAbs < 2 ^ 64
    · rw [hexact x hx]
      omega
    · -- A product this large keeps its magnitude when it is rounded.
      have hround := roundNearestEven_of_le (by omega : 0 < 64) (Nat.le_of_not_lt hx)
      rw [toLongDouble, h64]
      rcases lt_or_ge x 0 with hneg | hpos
      · have := hround.1 hneg
        omega
      · have := hround.2 hpos
        omega

/-- A result that is an ALU result of the reference. -/
theorem exists_result {result : Reference.Result} {r : ALUResult}
    (h : r = ALU.makeResult result.value result.carry result.overflow) :
    ∃ res, some result = some res ∧ r = ALU.makeResult res.value res.carry res.overflow :=
  ⟨result, rfl, h⟩

/-! ## Instruction by instruction -/

/-- `MOV` is a move of the value its source denotes. -/
theorem performMov_conforms (hs : s.state.halted = false) (hi : i.Denotes r)
    (h : (do
      Exec.lift i.twoOperands
      requireRegister i.dst
      let value ← readSource m i.src
      finishMove e i.dst value : Op W Unit) s = (.ok u, s')) :
    r.operandCount = some 2 ∧ (do
      let reg ← r.dst.asRegister
      let (value, world) ← Reference.value m s s.world r.src
      some (Reference.move { s with world := world } reg value (s.state.pc + e.size))) = some s' := by
  simp only [↓lift_bind_eq_ok, ↓requireRegister_bind_eq_ok] at h
  obtain ⟨_, hcount, ⟨reg, hreg⟩, h⟩ := h
  obtain ⟨value, s1, hvalue, h⟩ := Exec.bind_eq_ok.mp h
  obtain ⟨world, hread, rfl⟩ := readSource_conforms hi.src hvalue
  refine ⟨hi.twoOperands hcount, ?_⟩
  simp only [hi.dst.register _ hreg, Reference.Operand.asRegister, hread, Option.bind_eq_bind,
    Option.bind_some, finishMove_conforms hreg h hs]

/-- `LOAD` is a move of the word at the address of its source. -/
theorem performLoad_conforms (hs : s.state.halted = false) (hi : i.Denotes r)
    (h : (do
      Exec.lift i.twoOperands
      requireRegister i.dst
      let address ← readAddress i.src
      let value ← readDataMemory m address
      finishMove e i.dst value : Op W Unit) s = (.ok u, s')) :
    r.operandCount = some 2 ∧ (do
      let reg ← r.dst.asRegister
      let address ← r.src.asAddress s.state.registers
      let (value, world) ← Reference.dataRead m s s.world address
      some (Reference.move { s with world := world } reg value (s.state.pc + e.size))) = some s' := by
  simp only [↓lift_bind_eq_ok, ↓requireRegister_bind_eq_ok, ↓readAddress_bind_eq_ok] at h
  obtain ⟨_, hcount, ⟨reg, hreg⟩, address, haddress, h⟩ := h
  obtain ⟨value, s1, hvalue, h⟩ := Exec.bind_eq_ok.mp h
  obtain ⟨world, hread, rfl⟩ := readDataMemory_conforms hvalue
  refine ⟨hi.twoOperands hcount, ?_⟩
  simp only [hi.dst.register _ hreg, Reference.Operand.asRegister, hi.src.address _ _ haddress,
    hread, Option.bind_eq_bind, Option.bind_some, finishMove_conforms hreg h hs]

/-- `STORE` writes the value of its source, and the zero and sign flags show it. -/
theorem performStore_conforms (hs : s.state.halted = false) (hi : i.Denotes r)
    (h : (do
      Exec.lift i.twoOperands
      let address ← readAddress i.dst
      let value ← readSource m i.src
      writeDataMemory m address value
      modifyFlags fun flags => flags.updateZeroAndSign value
      advanceUnlessHalted e.size : Op W Unit) s = (.ok u, s')) :
    r.operandCount = some 2 ∧ (do
      let address ← r.dst.asAddress s.state.registers
      let (value, world) ← Reference.value m s s.world r.src
      let (memory, world) ← Reference.dataWrite m s world address value
      some { s with
        world := world
        state := { s.state with
          memory := memory
          flags := Reference.withZS s.state.flags value
          pc := s.state.pc + e.size } }) = some s' := by
  simp only [↓lift_bind_eq_ok, ↓readAddress_bind_eq_ok] at h
  obtain ⟨_, hcount, address, haddress, h⟩ := h
  obtain ⟨value, s1, hvalue, h⟩ := Exec.bind_eq_ok.mp h
  obtain ⟨world, hread, rfl⟩ := readSource_conforms hi.src hvalue
  obtain ⟨_, s2, hstore, h⟩ := Exec.bind_eq_ok.mp h
  obtain ⟨memory, world', hwrite, rfl⟩ := writeDataMemory_conforms hstore
  -- The source may be a device, so the write finds the world that the read has left.
  have hwrite : Reference.dataWrite m s world address value = some (memory, world') := hwrite
  simp only [modifyFlags, modifyState, ↓modify_bind_eq_ok, ← Reference.withZS_eq] at h
  refine ⟨hi.twoOperands hcount, ?_⟩
  simp only [hi.dst.address _ _ haddress, hread, hwrite, Option.bind_eq_bind, Option.bind_some]
  exact congrArg some (advance_conforms h hs).symm

/-- `NOT` assigns the complement of its register. -/
theorem performNot_conforms (hs : s.state.halted = false) (hi : i.Denotes r)
    (h : (do
      Exec.lift i.oneOperand
      requireRegister i.dst
      let value ← readSource m i.dst
      finishALU e i.dst (ALU.bitNot value) : Op W Unit) s = (.ok u, s')) :
    r.operandCount = some 1 ∧ (do
      let reg ← r.dst.asRegister
      some (Reference.assign s reg (Reference.logical (~~~(s.state.registers reg)))
        (s.state.pc + e.size))) = some s' := by
  simp only [↓lift_bind_eq_ok, ↓requireRegister_bind_eq_ok] at h
  obtain ⟨_, hcount, ⟨reg, hreg⟩, h⟩ := h
  obtain ⟨value, s1, hvalue, h⟩ := Exec.bind_eq_ok.mp h
  have hdst := hi.dst.register _ hreg
  obtain ⟨rfl, rfl⟩ := readSource_register (hdst ▸ hi.dst) hvalue
  refine ⟨hi.oneOperand hcount, ?_⟩
  simp only [hdst, Reference.Operand.asRegister, Option.bind_eq_bind, Option.bind_some]
  exact congrArg some (finishALU_conforms hreg _ h hs).symm

/-- `PUSH` pushes the value its operand denotes. -/
theorem performPush_conforms (hs : s.state.halted = false) (hi : i.Denotes r)
    (h : (do
      Exec.lift i.oneOperand
      let value ← readSource m i.dst
      pushValue value
      advanceUnlessHalted e.size : Op W Unit) s = (.ok u, s')) :
    r.operandCount = some 1 ∧ (do
      let (value, world) ← Reference.value m s s.world r.dst
      let pushed ← Reference.push { s with world := world } value
      some (Reference.goTo pushed (s.state.pc + e.size))) = some s' := by
  simp only [↓lift_bind_eq_ok] at h
  obtain ⟨_, hcount, h⟩ := h
  obtain ⟨value, s1, hvalue, h⟩ := Exec.bind_eq_ok.mp h
  obtain ⟨world, hread, rfl⟩ := readSource_conforms hi.dst hvalue
  obtain ⟨_, pushed, hpush, h⟩ := Exec.bind_eq_ok.mp h
  have hpushed := pushValue_conforms hpush
  obtain ⟨hpc, hhalted⟩ := push_same hpushed
  refine ⟨hi.oneOperand hcount, ?_⟩
  simp only [hread, hpushed, Option.bind_eq_bind, Option.bind_some,
    advance_conforms h (hhalted.trans hs), hpc]

/-- `POP` is a move of the word on top of the stack. -/
theorem performPop_conforms (hs : s.state.halted = false) (hi : i.Denotes r)
    (h : (do
      Exec.lift i.oneOperand
      requireRegister i.dst
      let value ← popValue
      finishMove e i.dst value : Op W Unit) s = (.ok u, s')) :
    r.operandCount = some 1 ∧ (do
      let reg ← r.dst.asRegister
      let (value, popped) ← Reference.pop s
      some (Reference.move popped reg value (s.state.pc + e.size))) = some s' := by
  simp only [↓lift_bind_eq_ok, ↓requireRegister_bind_eq_ok] at h
  obtain ⟨_, hcount, ⟨reg, hreg⟩, h⟩ := h
  obtain ⟨value, popped, hpop, h⟩ := Exec.bind_eq_ok.mp h
  have hpopped := popValue_conforms hpop
  obtain ⟨hpc, hhalted⟩ := pop_same hpopped
  refine ⟨hi.oneOperand hcount, ?_⟩
  simp only [hi.dst.register _ hreg, Reference.Operand.asRegister, hpopped, Option.bind_eq_bind,
    Option.bind_some, finishMove_conforms hreg h (hhalted.trans hs), hpc]

/-- What an instruction does when it returns is what the reference prescribes. -/
theorem perform_conforms [LongDouble] (hs : s.state.halted = false) (hi : i.Denotes r)
    (hm : m.softwareInterruptHandler = none) (h : perform e m i s = (.ok u, s')) :
    Reference.exec mulDetected m (s.state.pc + e.size) r s = some s' := by
  unfold perform at h
  obtain ⟨_, s1, hprivilege, h⟩ := Exec.bind_eq_ok.mp h
  obtain ⟨hallowed, rfl⟩ := requireInstructionPrivilege_eq_ok hprivilege
  rw [hi.opcode] at hallowed h
  -- Enough to show the arity and the effect.
  suffices hboth : r.operandCount = some (Reference.arity r.opcode)
      ∧ Reference.effect mulDetected m (s.state.pc + e.size) r s = some s' by
    rw [Reference.exec, if_neg (not_not.mpr hboth.1), if_neg hallowed]
    exact hboth.2
  unfold Reference.effect
  cases hop : r.opcode with
  | NOP =>
    rw [hop] at h
    simp only [↓lift_bind_eq_ok] at h
    obtain ⟨_, hcount, h⟩ := h
    exact ⟨hi.noOperand hcount, congrArg some (advance_conforms h hs).symm⟩
  | HALT =>
    rw [hop] at h
    simp only [↓lift_bind_eq_ok] at h
    obtain ⟨_, hcount, h⟩ := h
    exact ⟨hi.noOperand hcount, congrArg some (modify_eq_ok.mp h)⟩
  | MOV =>
    rw [hop] at h
    exact performMov_conforms hs hi h
  | LOAD =>
    rw [hop] at h
    exact performLoad_conforms hs hi h
  | STORE =>
    rw [hop] at h
    exact performStore_conforms hs hi h
  | ADD =>
    rw [hop] at h
    exact performALU_conforms hs hi (fun lhs rhs _ h => exists_result
      ((Except.ok.inj h).symm.trans (Reference.add_eq lhs rhs))) h
  | SUB =>
    rw [hop] at h
    exact performALU_conforms hs hi (fun lhs rhs _ h => exists_result
      ((Except.ok.inj h).symm.trans (Reference.sub_eq lhs rhs))) h
  | MUL =>
    rw [hop] at h
    exact performALU_conforms hs hi (fun lhs rhs _ h => exists_result
      ((Except.ok.inj h).symm.trans (Reference.mul_eq lhs rhs))) h
  | DIV =>
    rw [hop] at h
    exact performALU_conforms hs hi (fun lhs rhs _ h => Reference.div_eq h) h
  | AND | OR | XOR =>
    rw [hop] at h
    exact performALU_conforms hs hi (fun lhs rhs _ h => exists_result (Except.ok.inj h).symm) h
  | NOT =>
    rw [hop] at h
    exact performNot_conforms hs hi h
  | CMP =>
    rw [hop] at h
    exact performComparison_conforms hs hi Reference.sub_eq h
  | TEST =>
    rw [hop] at h
    exact performComparison_conforms hs hi (fun _ _ => rfl) h
  | JMP =>
    rw [hop] at h
    simp only [↓lift_bind_eq_ok] at h
    obtain ⟨_, hcount, h⟩ := h
    exact ⟨hi.oneOperand hcount, performJump_conforms hi.dst h⟩
  | JE | JNE | JG | JL =>
    rw [hop] at h
    exact performBranch_conforms hs hi h
  | PUSH =>
    rw [hop] at h
    exact performPush_conforms hs hi h
  | POP =>
    rw [hop] at h
    exact performPop_conforms hs hi h
  | CALL =>
    rw [hop] at h
    obtain ⟨hcount, target, pushed, hdst, hpush, hexec, rfl⟩ := performCall_conforms hi h
    refine ⟨hcount, ?_⟩
    simp only [hdst, Reference.Operand.asCode, hpush, Option.bind_eq_bind, Option.bind_some,
      if_pos hexec]
  | RET =>
    rw [hop] at h
    obtain ⟨hcount, address, popped, hpop, hnonneg, hexec, rfl⟩ := performRet_conforms hi h
    refine ⟨hcount, ?_⟩
    simp only [hpop, Option.bind_eq_bind, Option.bind_some, if_pos (And.intro hnonneg hexec)]
  | IRET =>
    rw [hop] at h
    simp only [↓lift_bind_eq_ok] at h
    obtain ⟨_, hcount, h⟩ := h
    exact ⟨hi.noOperand hcount, restoreInterruptFrame_conforms h⟩
  | EI | DI =>
    rw [hop] at h
    simp only [↓lift_bind_eq_ok] at h
    obtain ⟨_, hcount, h⟩ := h
    exact ⟨hi.noOperand hcount, setInterruptsEnabled_conforms hs h⟩
  | INT =>
    rw [hop] at h
    exact performInt_conforms hi hm h
  | Invalid =>
    rw [hop] at h
    cases (Prod.ext_iff.mp h).1

end Instructions

end CPU

end ZeroCpu
