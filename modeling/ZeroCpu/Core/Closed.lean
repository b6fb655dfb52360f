import ZeroCpu.Core.Stack
import ZeroCpu.Core.Step

/-!
# What an instruction can do to the core

An instruction that is neither an interrupt entry nor a return updates the core in four ways: it
assigns to registers, the named FLAGS, PC or `halted`, it lets a device change its world, it moves SP
with the Kernel stack pointer, or it stores a word. `Core.Closed` collects the four, and the case
analysis over the instruction set is made here once for every property closed under them.
-/

namespace ZeroCpu

open Library Exec

variable {W : Type}

/-! ## FLAGS -/

namespace Flags

/-- The bit positions of the four flags. -/
def named : List ℕ := [CF, ZF, SF, OF]

/-- The bits that belong to no flag are equal. -/
def SameReserved (flags flags' : Flags) : Prop :=
  ∀ k, k ∉ named → flags'.bits.getLsbD k = flags.bits.getLsbD k

namespace SameReserved

variable {flags flags' flags'' : Flags}

theorem refl (flags : Flags) : SameReserved flags flags := fun _ _ => rfl

theorem trans (h : SameReserved flags flags') (h' : SameReserved flags' flags'') :
    SameReserved flags flags'' := fun k hk => (h' k hk).trans (h k hk)

/-- Setting a named flag leaves the reserved bits alone. -/
theorem set (h : SameReserved flags flags') {bit : ℕ} (hbit : bit ∈ named) (value : Bool) :
    SameReserved flags (flags'.set bit value) := by
  intro k hk
  have hlt : bit < 32 := by
    simp only [named, CF, ZF, SF, OF, List.mem_cons, List.not_mem_nil, or_false] at hbit
    omega
  have hne : k ≠ bit := by
    rintro rfl
    exact hk hbit
  rw [getLsbD_set _ _ _ _ hlt, if_neg hne]
  exact h k hk

/-- Setting the zero and sign flags leaves the reserved bits alone. -/
theorem updateZeroAndSign (h : SameReserved flags flags') (value : Word) :
    SameReserved flags (flags'.updateZeroAndSign value) :=
  (h.set (by decide) _).set (by decide) _

/-- Setting the four flags leaves the reserved bits alone. -/
theorem applyALUResultToFlags (h : SameReserved flags flags') (result : ALUResult) :
    SameReserved flags (applyALUResultToFlags flags' result) := by
  unfold ZeroCpu.applyALUResultToFlags setZero setSign setCarry setOverflow
  exact (((h.set (by decide) _).set (by decide) _).set (by decide) _).set (by decide) _

/-- Restoring the flags of a frame leaves the reserved bits alone. -/
theorem restoreFlags (h : SameReserved flags flags') (value : Word) :
    SameReserved flags (restoreFlags flags' value) := by
  unfold ZeroCpu.restoreFlags setZero setSign setCarry setOverflow
  exact (((h.set (by decide) _).set (by decide) _).set (by decide) _).set (by decide) _

end SameReserved

end Flags

/-! ## Closed properties -/

/-- `state'` differs from `state` at most in registers, the four flags, PC and `halted`. -/
structure CPUState.Assigned (state state' : CPUState) : Prop where
  memory : state'.memory = state.memory
  flags : state.flags.SameReserved state'.flags
  privilegeLevel : state'.privilegeLevel = state.privilegeLevel
  sp : state'.sp = state.sp
  hasError : state'.hasError = state.hasError
  errorMessage : state'.errorMessage = state.errorMessage

/-- `P` survives every update that an instruction makes. -/
structure Core.Closed (P : Core W → Prop) : Prop where
  assign : ∀ {core : Core W} {state : CPUState}, P core → core.state.Assigned state →
    P { core with state := state }
  world : ∀ {core : Core W} (world : W), P core → P { core with world := world }
  moveSp : ∀ {core : Core W} (sp : ℕ), P core → P (core.moveSp sp)
  store : ∀ {core : Core W} {address : ℕ} (value : Word),
    address + 8 ≤ core.state.memory.size → P core → P (core.store address value)

namespace Core.Closed

open CPU

variable {P : Core W → Prop} {α : Type} {m : Setup W} {e : Engine} {i : InstructionView}
  {v : OperandView}

/-- A change of the registers, FLAGS, PC or the halt flag is kept. -/
theorem keeps_modifyState (h : Core.Closed P) {f : CPUState → CPUState}
    (hf : ∀ state : CPUState, state.Assigned (f state)) : Keeps P (modifyState f) :=
  Keeps.modify fun _ hP => h.assign hP (hf _)

theorem keeps_modifyFlags (h : Core.Closed P) {f : Flags → Flags}
    (hf : ∀ flags : Flags, flags.SameReserved (f flags)) : Keeps P (modifyFlags f) :=
  h.keeps_modifyState fun state => ⟨rfl, hf state.flags, rfl, rfl, rfl, rfl⟩

theorem keeps_updateZeroAndSign (h : Core.Closed P) (value : Word) :
    Keeps P (modifyFlags fun flags => flags.updateZeroAndSign value) :=
  h.keeps_modifyFlags fun flags => (Flags.SameReserved.refl flags).updateZeroAndSign value

theorem keeps_applyALUResult (h : Core.Closed P) (result : ALUResult) :
    Keeps P (modifyFlags fun flags => applyALUResultToFlags flags result) :=
  h.keeps_modifyFlags fun flags => (Flags.SameReserved.refl flags).applyALUResultToFlags result

theorem keeps_setRegister (h : Core.Closed P) (reg : RegisterName) (value : Word) :
    Keeps P (setRegister reg value) :=
  h.keeps_modifyState fun _ => ⟨rfl, .refl _, rfl, rfl, rfl, rfl⟩

theorem keeps_setPc (h : Core.Closed P) (address : ℕ) : Keeps P (setPc address) :=
  h.keeps_modifyState fun _ => ⟨rfl, .refl _, rfl, rfl, rfl, rfl⟩

theorem keeps_advance (h : Core.Closed P) (size : ℕ) : Keeps P (advanceUnlessHalted size) := by
  refine h.keeps_modifyState fun state => ?_
  split_ifs <;> exact ⟨rfl, .refl _, rfl, rfl, rfl, rfl⟩

theorem keeps_zoom (h : Core.Closed P) {x : Exec Str W α} :
    Keeps P (Exec.zoom Core.worldRef x) := fun _ hP => h.world _ hP

/-! ### Memory and stack -/

/-- A write to RAM is kept. -/
theorem keeps_writeMemory (h : Core.Closed P) (address : ℕ) (value : Word) :
    Keeps P (writeMemory address value) := by
  intro core hP
  rw [writeMemory_apply]
  cases hrange : core.state.memory.checkRange address 8 with
  | error error => exact hP
  | ok u => exact h.store value (Memory.checkRange_eq_ok.mp hrange) hP

/-- A data read is kept, also from a device. -/
theorem keeps_readDataMemory (h : Core.Closed P) (address : ℕ) :
    Keeps P (readDataMemory m address) := by
  refine Keeps.bind (Keeps.get.bind fun _ => Keeps.require _ _) fun _ => ?_
  cases busAt m address with
  | some bus => exact h.keeps_zoom
  | none => exact Keeps.get.bind fun _ => Keeps.lift _

/-- A data write is kept, also to a device. -/
theorem keeps_writeDataMemory (h : Core.Closed P) (address : ℕ) (value : Word) :
    Keeps P (writeDataMemory m address value) := by
  refine Keeps.bind (Keeps.get.bind fun _ => Keeps.require _ _) fun _ => ?_
  cases busAt m address with
  | some bus => exact h.keeps_zoom
  | none => exact h.keeps_writeMemory address value

/-- A push is kept. -/
theorem keeps_pushValue (h : Core.Closed P) (value : Word) : Keeps P (pushValue value) := by
  intro core hP
  rw [pushValue_apply]
  cases hcheck : checkPush core with
  | error error => exact hP
  | ok u => exact h.moveSp _ (h.store value (checkPush_eq_ok.mp hcheck).2 hP)

/-- A pop is kept. -/
theorem keeps_popValue (h : Core.Closed P) : Keeps P (popValue : Op W Word) := by
  intro core hP
  rw [popValue_apply]
  cases topValue core with
  | error error => exact hP
  | ok value => exact h.moveSp _ hP

/-- Reading the top of the stack is kept. -/
theorem keeps_peekValue : Keeps P (peekValue : Op W Word) := by
  intro core hP
  rw [peekValue_apply]
  exact hP

/-! ### Operands -/

/-- Reading an operand is kept. -/
theorem keeps_readSource (h : Core.Closed P) (v : OperandView) : Keeps P (readSource m v) := by
  refine Keeps.get.bind fun core => (Keeps.lift _).bind fun source => ?_
  cases source with
  | inl value => exact Keeps.pure value
  | inr address => exact h.keeps_readDataMemory address

theorem keeps_requireRegister (v : OperandView) : Keeps P (requireRegister v : Op W Unit) :=
  (Keeps.lift _).bind fun _ => Keeps.pure _

theorem keeps_writeRegister (h : Core.Closed P) (v : OperandView) (value : Word) :
    Keeps P (writeRegister v value) :=
  (Keeps.lift _).bind fun reg => h.keeps_setRegister reg value

theorem keeps_readAddress (v : OperandView) : Keeps P (readAddress v : Op W ℕ) :=
  Keeps.get.bind fun _ => Keeps.lift _

/-- The privilege check is kept. -/
theorem keeps_privilege (opcode : Opcode) :
    Keeps P (requireInstructionPrivilege opcode : Op W Unit) := by
  refine Keeps.get.bind fun core => ?_
  split
  · exact Keeps.pure _
  · split
    all_goals first | exact Keeps.throw _ | exact Keeps.pure _

/-! ### Instructions -/

/-- The last part of a move is kept. -/
theorem keeps_finishMove (h : Core.Closed P) (v : OperandView) (value : Word) :
    Keeps P (finishMove e v value) :=
  (h.keeps_writeRegister v value).bind fun _ => (h.keeps_updateZeroAndSign value).bind fun _ =>
    h.keeps_advance _

/-- The last part of an arithmetic instruction is kept. -/
theorem keeps_finishALU (h : Core.Closed P) (v : OperandView) (result : ALUResult) :
    Keeps P (finishALU e v result) :=
  (h.keeps_writeRegister v _).bind fun _ => (h.keeps_applyALUResult result).bind fun _ =>
    h.keeps_advance _

/-- An arithmetic instruction is kept. -/
theorem keeps_performALU (h : Core.Closed P) (op : Word → Word → Except Str ALUResult) :
    Keeps P (performALU op e m i) :=
  (Keeps.lift _).bind fun _ => (keeps_requireRegister _).bind fun _ =>
    (h.keeps_readSource _).bind fun _ => (h.keeps_readSource _).bind fun _ =>
      (Keeps.lift _).bind fun result => h.keeps_finishALU _ result

/-- A comparison is kept. -/
theorem keeps_performComparison (h : Core.Closed P) (op : Word → Word → ALUResult) :
    Keeps P (performComparison op e m i) :=
  (Keeps.lift _).bind fun _ => (h.keeps_readSource _).bind fun _ =>
    (h.keeps_readSource _).bind fun _ => (h.keeps_applyALUResult _).bind fun _ =>
      h.keeps_advance _

theorem keeps_performJump (h : Core.Closed P) : Keeps P (performJump m v) :=
  (Keeps.lift _).bind fun target => Keeps.get.bind fun _ => (Keeps.lift _).bind fun _ =>
    h.keeps_setPc target

/-- A conditional jump is kept. -/
theorem keeps_performBranch (h : Core.Closed P) (taken : Flags → Bool) :
    Keeps P (performBranch taken e m i) := by
  refine (Keeps.lift _).bind fun _ => Keeps.get.bind fun core => ?_
  split
  · exact h.keeps_performJump
  · exact h.keeps_advance _

/-- `EI` and `DI` are kept, since they change the world only. -/
theorem keeps_setInterruptsEnabled (h : Core.Closed P) (enabled : Bool) (missing : Str) :
    Keeps P (setInterruptsEnabled m enabled missing) := by
  unfold setInterruptsEnabled
  cases m.interruptController with
  | none => exact Keeps.throw _
  | some r => exact fun _ hP => h.world _ hP

/-- Every instruction but the two that enter and leave interrupt handlers keeps `P`. -/
theorem keeps_perform [LongDouble] (h : Core.Closed P) (hint : i.opcode ≠ .INT)
    (hiret : i.opcode ≠ .IRET) : Keeps P (perform e m i) := by
  refine (keeps_privilege _).bind fun _ => ?_
  -- Frames move memory in ways the closure does not cover, so `INT` and `IRET` are excluded.
  cases hop : i.opcode with
  | NOP => exact (Keeps.lift _).bind fun _ => h.keeps_advance _
  | HALT =>
    exact (Keeps.lift _).bind fun _ => h.keeps_modifyState fun _ =>
      ⟨rfl, .refl _, rfl, rfl, rfl, rfl⟩
  | MOV =>
    exact (Keeps.lift _).bind fun _ => (keeps_requireRegister _).bind fun _ =>
      (h.keeps_readSource _).bind fun value => h.keeps_finishMove _ value
  | LOAD =>
    exact (Keeps.lift _).bind fun _ => (keeps_requireRegister _).bind fun _ =>
      (keeps_readAddress _).bind fun _ => (h.keeps_readDataMemory _).bind fun value =>
        h.keeps_finishMove _ value
  | STORE =>
    exact (Keeps.lift _).bind fun _ => (keeps_readAddress _).bind fun _ =>
      (h.keeps_readSource _).bind fun value => (h.keeps_writeDataMemory _ _).bind fun _ =>
        (h.keeps_updateZeroAndSign value).bind fun _ => h.keeps_advance _
  | NOT =>
    exact (Keeps.lift _).bind fun _ => (keeps_requireRegister _).bind fun _ =>
      (h.keeps_readSource _).bind fun _ => h.keeps_finishALU _ _
  | JMP => exact (Keeps.lift _).bind fun _ => h.keeps_performJump
  | PUSH =>
    exact (Keeps.lift _).bind fun _ => (h.keeps_readSource _).bind fun value =>
      (h.keeps_pushValue value).bind fun _ => h.keeps_advance _
  | POP =>
    exact (Keeps.lift _).bind fun _ => (keeps_requireRegister _).bind fun _ =>
      h.keeps_popValue.bind fun value => h.keeps_finishMove _ value
  | CALL =>
    exact (Keeps.lift _).bind fun _ => (Keeps.lift _).bind fun target => Keeps.get.bind fun _ =>
      (Keeps.lift _).bind fun _ => (Keeps.lift _).bind fun _ =>
        (h.keeps_pushValue _).bind fun _ => h.keeps_setPc target
  | RET =>
    exact (Keeps.lift _).bind fun _ => keeps_peekValue.bind fun _ =>
      (Keeps.lift _).bind fun address => Keeps.get.bind fun _ => (Keeps.lift _).bind fun _ =>
        h.keeps_popValue.bind fun _ => h.keeps_setPc address
  | EI | DI =>
    exact (Keeps.lift _).bind fun _ => (h.keeps_setInterruptsEnabled _ _).bind fun _ =>
      h.keeps_advance _
  | ADD | SUB | MUL | DIV | AND | OR | XOR => exact h.keeps_performALU _
  | CMP | TEST => exact h.keeps_performComparison _
  | JE | JNE | JG | JL => exact h.keeps_performBranch _
  | Invalid => exact Keeps.throw _
  | INT => exact absurd hop hint
  | IRET => exact absurd hop hiret

end Core.Closed

end ZeroCpu
