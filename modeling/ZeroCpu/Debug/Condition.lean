import ZeroCpu.Core.Execute

/-!
# Conditions of breakpoints

Reference: `include/zero_cpu/debug/DebugCondition.hpp`, `src/debug/DebugCondition.cpp`.

A condition compares, as signed integers, one value of the CPU with a constant. Only a word of
memory can be out of reach: evaluation throws then.
-/

namespace ZeroCpu.Debug

open Library

variable {W : Type}

/-- `DebugConditionSourceKind`. -/
inductive DebugConditionSourceKind where
  | Register
  | ProgramCounter
  | StackPointer
  | FlagsRaw
  | ZeroFlag
  | SignFlag
  | CarryFlag
  | OverflowFlag
  | MemoryQword
deriving DecidableEq, Repr

/-- `DebugComparisonOperator`. -/
inductive DebugComparisonOperator where
  | Equal
  | NotEqual
  | Less
  | LessEqual
  | Greater
  | GreaterEqual
deriving DecidableEq, Repr

/-- The comparison an operator stands for. -/
def DebugComparisonOperator.compare : DebugComparisonOperator → ℤ → ℤ → Bool
  | .Equal, actual, expected => decide (actual = expected)
  | .NotEqual, actual, expected => decide (actual ≠ expected)
  | .Less, actual, expected => decide (actual < expected)
  | .LessEqual, actual, expected => decide (actual ≤ expected)
  | .Greater, actual, expected => decide (actual > expected)
  | .GreaterEqual, actual, expected => decide (actual ≥ expected)

/-- `DebugCondition`. -/
structure DebugCondition where
  source_kind : DebugConditionSourceKind := .Register
  register_name : RegisterName := .R0
  memory_address : ℕ := 0
  operation : DebugComparisonOperator := .Equal
  expected_value : Word := 0
  source_text : Str := []
  expression : Str := []
deriving DecidableEq

namespace DebugCondition

/-- `DebugCondition::validateForCPU`. -/
def validateForCPU (condition : DebugCondition) (cpu : CPU W) : Except Str Unit :=
  if condition.source_kind ≠ .MemoryQword then .ok ()
  else
    let memorySize := cpu.core.state.memory.size
    reject (condition.memory_address ≥ memorySize ∨ 8 > memorySize - condition.memory_address)
      "Condition memory qword is outside process memory"

/-- `DebugCondition::actualValue`. -/
def actualValue (condition : DebugCondition) (cpu : CPU W) : Except Str Word :=
  let state := cpu.core.state
  match condition.source_kind with
  | .Register => .ok (state.registers condition.register_name)
  | .ProgramCounter => do
      reject (state.pc > 2 ^ 63 - 1) "PC does not fit in int64"
      pure (Word.ofSize state.pc)
  | .StackPointer => do
      reject (state.sp > 2 ^ 63 - 1) "SP does not fit in int64"
      pure (Word.ofSize state.sp)
  | .FlagsRaw => .ok (state.flags.bits.setWidth 64)
  | .ZeroFlag => .ok (if state.flags.zero then 1 else 0)
  | .SignFlag => .ok (if state.flags.sign then 1 else 0)
  | .CarryFlag => .ok (if state.flags.carry then 1 else 0)
  | .OverflowFlag => .ok (if state.flags.overflow then 1 else 0)
  | .MemoryQword => do
      condition.validateForCPU cpu
      state.memory.read condition.memory_address

/-- `DebugCondition::evaluate`. -/
def evaluate (condition : DebugCondition) (cpu : CPU W) : Except Str Bool := do
  let actual ← condition.actualValue cpu
  pure (condition.operation.compare actual.toInt condition.expected_value.toInt)

/-! ## Conditions in reach -/

/-- The condition holds on this CPU. -/
def Holds (condition : DebugCondition) (cpu : CPU W) : Prop := condition.evaluate cpu = .ok true

/-- A memory source is inside a memory of the given size. -/
def InRange (condition : DebugCondition) (size : ℕ) : Prop :=
  condition.source_kind = .MemoryQword → condition.memory_address + 8 ≤ size

variable {condition : DebugCondition} {cpu : CPU W}

/-- The check of a condition asks for a word inside the memory. -/
theorem validateForCPU_eq_ok :
    condition.validateForCPU cpu = .ok () ↔ condition.InRange cpu.core.state.memory.size := by
  rw [validateForCPU, InRange]
  split_ifs with hkind
  · exact iff_of_true rfl fun h => absurd h hkind
  · rw [reject_eq_ok]
    constructor
    · intro h _
      omega
    · intro h
      have := h (not_not.mp hkind)
      omega

/-- A condition in range has a value on a CPU whose PC and SP are small. -/
theorem exists_actualValue (hrange : condition.InRange cpu.core.state.memory.size)
    (hpc : cpu.core.state.pc < 2 ^ 63) (hsp : cpu.core.state.sp < 2 ^ 63) :
    ∃ value, condition.actualValue cpu = .ok value := by
  unfold actualValue
  cases hkind : condition.source_kind with
  | ProgramCounter =>
    simp only [reject_of_not (not_lt.mpr (Nat.le_sub_one_of_lt hpc)), ok_bind]
    exact ⟨_, rfl⟩
  | StackPointer =>
    simp only [reject_of_not (not_lt.mpr (Nat.le_sub_one_of_lt hsp)), ok_bind]
    exact ⟨_, rfl⟩
  | MemoryQword =>
    simp only [validateForCPU_eq_ok.mpr hrange, ok_bind]
    exact ⟨_, Memory.read_eq_ok.mpr ⟨hrange hkind, rfl⟩⟩
  | Register => exact ⟨_, rfl⟩
  | FlagsRaw => exact ⟨_, rfl⟩
  | ZeroFlag => exact ⟨_, rfl⟩
  | SignFlag => exact ⟨_, rfl⟩
  | CarryFlag => exact ⟨_, rfl⟩
  | OverflowFlag => exact ⟨_, rfl⟩

/-- Evaluation decides a condition that has a value. -/
theorem evaluate_of_actualValue {value : Word} (h : condition.actualValue cpu = .ok value) :
    condition.evaluate cpu
      = .ok (condition.operation.compare value.toInt condition.expected_value.toInt) := by
  rw [evaluate, h, ok_bind]
  rfl

end DebugCondition

end ZeroCpu.Debug
