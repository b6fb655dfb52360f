import ZeroCpu.Core.Memory
import ZeroCpu.Library.Rounding

/-!
# Registers, FLAGS and the ALU

Reference: `src/core/RegisterFile.cpp`, `src/core/Flags.cpp`, `src/core/ALU.cpp`,
`src/core/PrivilegeLevel.cpp`.

`ALU::mul` detects overflow through `long double`, whose precision is chosen by the compiler. The
class `LongDouble` carries that choice, so everything below holds on both kinds of build.
-/

namespace ZeroCpu

open Library

/-- `RegisterName`, without its `Count` sentinel. -/
inductive RegisterName where
  | R0 | R1 | R2 | R3 | R4 | R5 | R6 | R7
deriving DecidableEq, Repr

/-- The registers in index order. -/
def RegisterName.all : List RegisterName := [.R0, .R1, .R2, .R3, .R4, .R5, .R6, .R7]

theorem RegisterName.mem_all (reg : RegisterName) : reg ∈ RegisterName.all := by
  cases reg <;> decide

/-- `RegisterFile::registers_`. -/
abbrev RegisterFile : Type := RegisterName → Word

namespace RegisterFile

/-- Writing one register. -/
def set (registers : RegisterFile) (reg : RegisterName) (value : Word) : RegisterFile :=
  Function.update registers reg value

/-- `RegisterFile::reset`. -/
def zero : RegisterFile := fun _ => 0

@[simp] theorem set_self (registers : RegisterFile) (reg : RegisterName) (value : Word) :
    registers.set reg value reg = value := by
  simp [set]

theorem set_of_ne (registers : RegisterFile) {reg other : RegisterName} (value : Word)
    (h : other ≠ reg) : registers.set reg value other = registers other := by
  simp [set, h]

end RegisterFile

/-- `PrivilegeLevel`. -/
inductive PrivilegeLevel where
  | kernel
  | user
deriving DecidableEq, Repr

/-- The word a privilege level is saved as. -/
def privilegeLevelToRaw : PrivilegeLevel → Word
  | .kernel => 0
  | .user => 1

/-- The privilege level of a saved word; any other word throws. -/
def privilegeLevelFromRaw (value : Word) : Except Str PrivilegeLevel :=
  if value = 0 then .ok .kernel
  else if value = 1 then .ok .user
  else .error ("Invalid saved privilege level: " ++ intToStr value.toInt)

@[simp] theorem privilegeLevelFromRaw_toRaw (level : PrivilegeLevel) :
    privilegeLevelFromRaw (privilegeLevelToRaw level) = .ok level := by
  cases level <;> rfl

/-! ## FLAGS -/

/-- `Flags::bits_`, with the carry, zero, sign and overflow bits at positions 0, 6, 7 and 11. -/
structure Flags where
  bits : BitVec 32
deriving DecidableEq, Repr

namespace Flags

/-- The bit positions of the `Flags::Bit` masks. -/
def CF : ℕ := 0
def ZF : ℕ := 6
def SF : ℕ := 7
def OF : ℕ := 11

/-- All flags clear. -/
def reset : Flags := ⟨0⟩

def test (flags : Flags) (bit : ℕ) : Bool := (flags.bits &&& BitVec.twoPow 32 bit) != 0

def set (flags : Flags) (bit : ℕ) (value : Bool) : Flags :=
  if value then ⟨flags.bits ||| BitVec.twoPow 32 bit⟩
  else ⟨flags.bits &&& ~~~(BitVec.twoPow 32 bit)⟩

/-- The four named bits, as `Flags::carry` and its siblings read them. -/
def carry (flags : Flags) : Bool := flags.test CF
def zero (flags : Flags) : Bool := flags.test ZF
def sign (flags : Flags) : Bool := flags.test SF
def overflow (flags : Flags) : Bool := flags.test OF

/-- `Flags::setCarry` and its siblings. -/
def setCarry (flags : Flags) (value : Bool) : Flags := flags.set CF value
def setZero (flags : Flags) (value : Bool) : Flags := flags.set ZF value
def setSign (flags : Flags) (value : Bool) : Flags := flags.set SF value
def setOverflow (flags : Flags) (value : Bool) : Flags := flags.set OF value

/-- `Flags::updateZeroAndSign`. -/
def updateZeroAndSign (flags : Flags) (result : Word) : Flags :=
  (flags.setZero (result == 0)).setSign (decide (result.toInt < 0))

/-- Testing a mask reads the bit at its position. -/
theorem test_eq_getLsbD (flags : Flags) {bit : ℕ} (h : bit < 32) :
    flags.test bit = flags.bits.getLsbD bit := by
  rw [test, BitVec.and_twoPow]
  cases flags.bits.getLsbD bit
  · rfl
  · have : BitVec.twoPow 32 bit ≠ 0#32 := by
      intro h0
      have := congrArg (fun v => v.getLsbD bit) h0
      simp [h] at this
    simpa using this

/-- Setting a flag changes its own bit only. -/
theorem getLsbD_set (flags : Flags) (bit k : ℕ) (value : Bool) (h : bit < 32) :
    (flags.set bit value).bits.getLsbD k
      = if k = bit then value else flags.bits.getLsbD k := by
  by_cases hk : k = bit
  · subst hk
    cases value <;> simp [set, h]
  · by_cases hlt : k < 32
    · cases value <;> simp [set, hk, hlt]
    · have h1 : ∀ v : BitVec 32, v.getLsbD k = false :=
        fun v => BitVec.getLsbD_of_ge v k (by omega)
      rw [if_neg hk, h1, h1]

/-- Setting one flag leaves every other flag bit alone. -/
theorem test_set (flags : Flags) {bit k : ℕ} (value : Bool) (hk : k < 32) (h : bit < 32) :
    (flags.set bit value).test k = if k = bit then value else flags.test k := by
  rw [test_eq_getLsbD _ hk, getLsbD_set _ _ _ _ h, test_eq_getLsbD _ hk]

end Flags

/-! ## The ALU -/

/-- The precision of the platform's `long double`: 64 bits (x87) or 53 bits (where it is
`double`). -/
class LongDouble where
  mantDig : ℕ
  mantDig_eq : mantDig = 64 ∨ mantDig = 53

/-- The x87 build. -/
@[reducible] def LongDouble.x87 : LongDouble := ⟨64, .inl rfl⟩

/-- `ALUResult`. -/
structure ALUResult where
  value : Word
  zero : Bool
  sign : Bool
  carry : Bool
  overflow : Bool
deriving DecidableEq, Repr

/-- `std::numeric_limits<std::int64_t>::max()`. -/
def int64Max : ℤ := 2 ^ 63 - 1

/-- `std::numeric_limits<std::int64_t>::min()`. -/
def int64Min : ℤ := -2 ^ 63

/-- The signed sum leaves the range of a word. -/
def addSignedOverflow (lhs rhs : ℤ) : Bool :=
  decide (rhs > 0 ∧ lhs > int64Max - rhs) || decide (rhs < 0 ∧ lhs < int64Min - rhs)

/-- The signed difference leaves the range of a word. -/
def subSignedOverflow (lhs rhs : ℤ) : Bool :=
  if rhs > 0 then decide (lhs < int64Min + rhs)
  else if rhs < 0 then decide (lhs > int64Max + rhs)
  else false

/-- `static_cast<long double>` of an integer, and the rounding of a `long double` product. -/
def toLongDouble [LongDouble] (x : ℤ) : ℤ := roundNearestEven LongDouble.mantDig x

def mulSignedOverflow [LongDouble] (lhs rhs : ℤ) : Bool :=
  if lhs = 0 ∨ rhs = 0 then false
  else if lhs = -1 ∧ rhs = int64Min then true
  else if rhs = -1 ∧ lhs = int64Min then true
  else
    let result := toLongDouble (toLongDouble lhs * toLongDouble rhs)
    decide (result > toLongDouble int64Max) || decide (result < toLongDouble int64Min)

namespace ALU

/-- A result with its zero and sign bits. -/
def makeResult (value : Word) (carry overflow : Bool) : ALUResult where
  value := value
  zero := value == 0
  sign := decide (value.toInt < 0)
  carry := carry
  overflow := overflow

/-- `ALU::add`. -/
def add (lhs rhs : Word) : ALUResult :=
  let result := lhs + rhs
  makeResult result (decide (result.toNat < lhs.toNat)) (addSignedOverflow lhs.toInt rhs.toInt)

/-- `ALU::sub`. -/
def sub (lhs rhs : Word) : ALUResult :=
  let result := lhs - rhs
  makeResult result (decide (lhs.toNat < rhs.toNat)) (subSignedOverflow lhs.toInt rhs.toInt)

/-- `ALU::mul`. -/
def mul [LongDouble] (lhs rhs : Word) : ALUResult :=
  let result := lhs * rhs
  let overflow := mulSignedOverflow lhs.toInt rhs.toInt
  makeResult result overflow overflow

/-- `ALU::div`, which throws on a zero divisor. -/
def div (lhs rhs : Word) : Except Str ALUResult :=
  if rhs = 0 then .error "ALU division by zero"
  else if lhs.toInt = int64Min ∧ rhs.toInt = -1 then .error "ALU signed division overflow"
  else .ok (makeResult (lhs.sdiv rhs) false false)

/-- The logical operations clear the carry and overflow flags. -/
def bitAnd (lhs rhs : Word) : ALUResult := makeResult (lhs &&& rhs) false false
def bitOr (lhs rhs : Word) : ALUResult := makeResult (lhs ||| rhs) false false
def bitXor (lhs rhs : Word) : ALUResult := makeResult (lhs ^^^ rhs) false false
def bitNot (value : Word) : ALUResult := makeResult (~~~value) false false
def compare (lhs rhs : Word) : ALUResult := sub lhs rhs
def test (lhs rhs : Word) : ALUResult := bitAnd lhs rhs

end ALU

/-! ## FLAGS in branches and interrupt frames -/

/-- `CPU::applyALUResultToFlags`. -/
def applyALUResultToFlags (flags : Flags) (result : ALUResult) : Flags :=
  (((flags.setZero result.zero).setSign result.sign).setCarry result.carry).setOverflow
    result.overflow

/-- The flags as the word an interrupt frame saves. -/
def packFlags (flags : Flags) : Word :=
  let value : Word := 0
  let value := if flags.zero then value ||| 1#64 <<< 0 else value
  let value := if flags.sign then value ||| 1#64 <<< 1 else value
  let value := if flags.carry then value ||| 1#64 <<< 2 else value
  if flags.overflow then value ||| 1#64 <<< 3 else value

/-- The flags an interrupt frame restores. -/
def restoreFlags (flags : Flags) (value : Word) : Flags :=
  (((flags.setZero ((value &&& 1#64 <<< 0) != 0)).setSign ((value &&& 1#64 <<< 1) != 0)).setCarry
    ((value &&& 1#64 <<< 2) != 0)).setOverflow ((value &&& 1#64 <<< 3) != 0)

/-- `JL`'s test. -/
def signedLessThanFromFlags (flags : Flags) : Bool := flags.sign != flags.overflow

/-- `JG`'s test. -/
def signedGreaterThanFromFlags (flags : Flags) : Bool :=
  !flags.zero && flags.sign == flags.overflow

/-! ## The architectural state -/

/-- `CPUState`. -/
structure CPUState where
  registers : RegisterFile
  memory : Memory
  flags : Flags
  privilegeLevel : PrivilegeLevel
  pc : ℕ
  sp : ℕ
  halted : Bool
  hasError : Bool
  errorMessage : Str

namespace CPUState

/-- The address the stack starts at. -/
def kDefaultStackBase : ℕ := 2048

/-- `CPUState::isUserMode`. -/
def isUserMode (state : CPUState) : Bool := state.privilegeLevel == .user

/-- `CPUState::setError`. -/
def setError (state : CPUState) (message : Str) : CPUState :=
  { state with hasError := true, errorMessage := message, halted := true }

/-- `CPUState::reset`: registers, memory, FLAGS and the control fields at their initial values. -/
def reset (state : CPUState) : CPUState where
  registers := RegisterFile.zero
  memory := state.memory.reset
  flags := Flags.reset
  privilegeLevel := .kernel
  pc := 0
  sp := kDefaultStackBase
  halted := false
  hasError := false
  errorMessage := []

/-- `CPUState::CPUState()`. -/
def initial : CPUState where
  registers := RegisterFile.zero
  memory := Memory.ofSize MemoryMap.kDefaultMemorySize
  flags := Flags.reset
  privilegeLevel := .kernel
  pc := 0
  sp := kDefaultStackBase
  halted := false
  hasError := false
  errorMessage := []

end CPUState

end ZeroCpu
