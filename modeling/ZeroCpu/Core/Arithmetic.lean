import Mathlib.Data.BitVec
import Mathlib.Data.Int.ModEq
import ZeroCpu.Core.Conformance

/-!
# The flags of arithmetic

Reference: `src/core/ALU.cpp`.

What `ALU::add`, `ALU::sub` and `ALU::mul` report about the exact integer result. The overflow tests
of addition and subtraction are themselves signed arithmetic; `evalAddSignedOverflow` and
`evalSubSignedOverflow` evaluate them with every intermediate value checked. The overflow test of
multiplication goes through `long double`, and is exact where its significand has 64 bits only.
-/

namespace ZeroCpu

open Library

/-- The value and the flags that belong to an exact result: the flags of the wrapped value, the
carry `carry`, and overflow outside of the signed range. -/
structure ALUResult.Exact (result : ALUResult) (exact : ℤ) (carry : Prop) : Prop where
  value : Int.ModEq (2 ^ 64) result.value.toInt exact
  zero : result.zero = true ↔ result.value.toInt = 0
  sign : result.sign = true ↔ result.value.toInt < 0
  carry : result.carry = true ↔ carry
  overflow : result.overflow = true ↔ ¬ (int64Min ≤ exact ∧ exact ≤ int64Max)

/-- A number overflows when it does not fit into a signed word. -/
theorem overflows_iff (exact : ℤ) :
    Reference.overflows exact = true ↔ ¬ (int64Min ≤ exact ∧ exact ≤ int64Max) := by
  simp only [Reference.overflows, int64Min, int64Max, Bool.not_eq_true', decide_eq_false_iff_not]
  omega

/-- The wrapped value is congruent to the exact one. -/
theorem toInt_ofInt_modEq (exact : ℤ) : Int.ModEq (2 ^ 64) (BitVec.ofInt 64 exact).toInt exact := by
  rw [BitVec.toInt_ofInt]
  exact Int.bmod_emod

theorem toInt_eq_zero_iff (value : Word) : (value == 0) = true ↔ value.toInt = 0 := by
  rw [beq_iff_eq]
  exact ⟨fun h => h ▸ rfl, fun h => BitVec.eq_of_toInt_eq h⟩

/-- A result is exact when both of its flags are. -/
theorem exact_makeResult {exact : ℤ} {carry overflow : Bool} {c : Prop} (hc : carry = true ↔ c)
    (ho : overflow = true ↔ ¬ (int64Min ≤ exact ∧ exact ≤ int64Max)) :
    (ALU.makeResult (BitVec.ofInt 64 exact) carry overflow).Exact exact c where
  value := toInt_ofInt_modEq exact
  zero := toInt_eq_zero_iff _
  sign := decide_eq_true_iff
  carry := hc
  overflow := ho

/-- A sum has exact flags. -/
theorem exact_add (lhs rhs : Word) :
    (ALU.add lhs rhs).Exact (lhs.toInt + rhs.toInt) (2 ^ 64 ≤ lhs.toNat + rhs.toNat) := by
  rw [Reference.add_eq]
  exact exact_makeResult decide_eq_true_iff (overflows_iff _)

/-- A difference has exact flags. -/
theorem exact_sub (lhs rhs : Word) :
    (ALU.sub lhs rhs).Exact (lhs.toInt - rhs.toInt) (lhs.toNat < rhs.toNat) := by
  rw [Reference.sub_eq]
  exact exact_makeResult decide_eq_true_iff (overflows_iff _)

/-! ## The overflow tests of addition and subtraction -/

/-- A signed operation of the language: it has a value only inside of the range. -/
def signed (value : ℤ) : Option ℤ :=
  if int64Min ≤ value ∧ value ≤ int64Max then some value else none

/-- `addSignedOverflow`, with `none` where an expression it evaluates leaves the range. -/
def evalAddSignedOverflow (lhs rhs : ℤ) : Option Bool := do
  let first ← if rhs > 0 then (signed (int64Max - rhs)).map fun bound => decide (lhs > bound)
    else some false
  if first then some true
  else if rhs < 0 then (signed (int64Min - rhs)).map fun bound => decide (lhs < bound)
  else some false

/-- `subSignedOverflow`, with `none` where an expression it evaluates leaves the range. -/
def evalSubSignedOverflow (lhs rhs : ℤ) : Option Bool :=
  if rhs > 0 then (signed (int64Min + rhs)).map fun bound => decide (lhs < bound)
  else if rhs < 0 then (signed (int64Max + rhs)).map fun bound => decide (lhs > bound)
  else some false

theorem signed_of_mem {value : ℤ} (h : int64Min ≤ value ∧ value ≤ int64Max) :
    signed value = some value := if_pos h

/-- The test for the overflow of a sum does not overflow itself. -/
theorem evalAddSignedOverflow_eq (lhs rhs : Word) :
    evalAddSignedOverflow lhs.toInt rhs.toInt = some (addSignedOverflow lhs.toInt rhs.toInt) := by
  have hlow := BitVec.le_toInt rhs
  have hhigh := BitVec.toInt_lt (x := rhs)
  unfold evalAddSignedOverflow addSignedOverflow
  by_cases hpos : rhs.toInt > 0
  · have hmem : int64Min ≤ int64Max - rhs.toInt ∧ int64Max - rhs.toInt ≤ int64Max := by
      simp only [int64Min, int64Max]
      omega
    have hneg : ¬ rhs.toInt < 0 := by omega
    by_cases hbound : lhs.toInt > int64Max - rhs.toInt
    · simp [hpos, signed_of_mem hmem, hbound]
    · simp [hpos, hneg, signed_of_mem hmem, hbound]
  · by_cases hneg : rhs.toInt < 0
    · have hmem : int64Min ≤ int64Min - rhs.toInt ∧ int64Min - rhs.toInt ≤ int64Max := by
        simp only [int64Min, int64Max]
        omega
      simp [hpos, hneg, signed_of_mem hmem]
    · simp [hpos, hneg]

/-- The test for the overflow of a difference does not overflow itself. -/
theorem evalSubSignedOverflow_eq (lhs rhs : Word) :
    evalSubSignedOverflow lhs.toInt rhs.toInt = some (subSignedOverflow lhs.toInt rhs.toInt) := by
  have hlow := BitVec.le_toInt rhs
  have hhigh := BitVec.toInt_lt (x := rhs)
  unfold evalSubSignedOverflow subSignedOverflow
  by_cases hpos : rhs.toInt > 0
  · have hmem : int64Min ≤ int64Min + rhs.toInt ∧ int64Min + rhs.toInt ≤ int64Max := by
      simp only [int64Min, int64Max]
      omega
    simp [hpos, signed_of_mem hmem]
  · by_cases hneg : rhs.toInt < 0
    · have hmem : int64Min ≤ int64Max + rhs.toInt ∧ int64Max + rhs.toInt ≤ int64Max := by
        simp only [int64Min, int64Max]
        omega
      simp [hpos, hneg, signed_of_mem hmem]
    · simp [hpos, hneg]

/-- Addition and subtraction report the exact result, and the overflow tests stay inside of the
signed range. -/
theorem add_sub_flags_exact (lhs rhs : Word) :
    (ALU.add lhs rhs).Exact (lhs.toInt + rhs.toInt) (2 ^ 64 ≤ lhs.toNat + rhs.toNat) ∧
    (ALU.sub lhs rhs).Exact (lhs.toInt - rhs.toInt) (lhs.toNat < rhs.toNat) ∧
    evalAddSignedOverflow lhs.toInt rhs.toInt = some (addSignedOverflow lhs.toInt rhs.toInt) ∧
    evalSubSignedOverflow lhs.toInt rhs.toInt = some (subSignedOverflow lhs.toInt rhs.toInt) :=
  ⟨exact_add lhs rhs, exact_sub lhs rhs, evalAddSignedOverflow_eq lhs rhs,
    evalSubSignedOverflow_eq lhs rhs⟩

/-! ## The overflow test of multiplication -/

/-- With 53 bits, a magnitude rounds above `2 ^ 63` from more than half a unit above it on. -/
theorem two_pow_63_lt_round (n : ℕ) :
    2 ^ 63 < roundNearestEvenNat 53 n ↔ 2 ^ 63 + 2 ^ 10 < n := by
  rcases Nat.lt_or_ge n (2 ^ 63) with hlow | hlow
  · have := roundNearestEvenNat_le_two_pow (p := 53) (by omega) hlow
    omega
  · rcases Nat.lt_or_ge n (2 ^ 64) with hhigh | hhigh
    · -- between the two powers the eleven low bits are rounded away
      have hlog : Nat.log2 n = 63 := by
        refine Nat.le_antisymm ?_ ((Nat.le_log2 (by omega)).mpr hlow)
        exact Nat.le_of_lt_succ ((Nat.log2_lt (by omega)).mpr hhigh)
      simp only [roundNearestEvenNat, hlog]
      split_ifs <;> omega
    · have := two_pow_le_roundNearestEvenNat (p := 53) (by omega) hhigh
      omega

/-- Rounding does not depend on the sign. -/
theorem natAbs_roundNearestEven (p : ℕ) (x : ℤ) :
    (roundNearestEven p x).natAbs = roundNearestEvenNat p x.natAbs := by
  unfold roundNearestEven
  split_ifs <;> simp

/-- A product of two magnitudes of at most `2 ^ 63` stays there when the factors are rounded, up to
half a unit in the last place. -/
theorem rounded_factors_le {x y : ℕ} (h : x * y ≤ 2 ^ 63) :
    roundNearestEvenNat 53 x * roundNearestEvenNat 53 y ≤ 2 ^ 63 + 2 ^ 10 := by
  wlog hxy : y ≤ x generalizing x y
  · rw [Nat.mul_comm]
    exact this (Nat.mul_comm x y ▸ h) (by omega)
  -- the smaller factor has few bits and is held exactly
  have hy : y < 2 ^ 53 := by
    by_contra hge
    have := Nat.mul_le_mul (Nat.le_trans (Nat.le_of_not_lt hge) hxy) (Nat.le_of_not_lt hge)
    omega
  rw [roundNearestEvenNat_of_lt hy]
  have herror := Nat.mul_le_mul_right y (roundNearestEvenNat_error 53 x)
  have hscaled := Nat.mul_le_mul_right (2 ^ 53 + 1) h
  have hleft : roundNearestEvenNat 53 x * 2 ^ 53 * y = roundNearestEvenNat 53 x * y * 2 ^ 53 :=
    Nat.mul_right_comm _ _ _
  have hright : x * (2 ^ 53 + 1) * y = x * y * (2 ^ 53 + 1) := Nat.mul_right_comm _ _ _
  rw [hleft, hright] at herror
  omega

/-- Where the overflow of a product is lost: the significand has 53 bits, the pair is not the one
that is tested first, and the product of the rounded factors is within half a unit in the last place
of `2 ^ 63`. -/
def OverflowLost [LongDouble] (lhs rhs : ℤ) : Prop :=
  LongDouble.mantDig = 53 ∧ ¬ (int64Min ≤ lhs * rhs ∧ lhs * rhs ≤ int64Max) ∧
    ¬ (lhs = -1 ∧ rhs = int64Min) ∧ ¬ (rhs = -1 ∧ lhs = int64Min) ∧
    (toLongDouble lhs * toLongDouble rhs).natAbs ≤ 2 ^ 63 + 2 ^ 10

/-- With 53 bits the comparison with the rounded bounds is a comparison of magnitudes. -/
theorem mulSignedOverflow_double [LongDouble] (hp : LongDouble.mantDig = 53) {lhs rhs : ℤ}
    (hzero : ¬ (lhs = 0 ∨ rhs = 0)) (hl : ¬ (lhs = -1 ∧ rhs = int64Min))
    (hr : ¬ (rhs = -1 ∧ lhs = int64Min)) :
    mulSignedOverflow lhs rhs = true
      ↔ 2 ^ 63 + 2 ^ 10 < (toLongDouble lhs * toLongDouble rhs).natAbs := by
  have hmax : toLongDouble int64Max = 2 ^ 63 := by
    rw [toLongDouble, hp]
    decide
  have hmin : toLongDouble int64Min = -2 ^ 63 := by
    rw [toLongDouble, hp]
    decide
  rw [mulSignedOverflow, if_neg hzero, if_neg hl, if_neg hr, hmax, hmin]
  generalize toLongDouble lhs * toLongDouble rhs = x
  rw [← two_pow_63_lt_round, ← natAbs_roundNearestEven, toLongDouble, hp]
  simp only [Bool.or_eq_true, decide_eq_true_eq]
  omega

/-- A product that is in range is never reported as an overflow. -/
theorem rounded_product_le [LongDouble] (hp : LongDouble.mantDig = 53) {lhs rhs : ℤ}
    (h : int64Min ≤ lhs * rhs ∧ lhs * rhs ≤ int64Max) :
    (toLongDouble lhs * toLongDouble rhs).natAbs ≤ 2 ^ 63 + 2 ^ 10 := by
  have hproduct : lhs.natAbs * rhs.natAbs ≤ 2 ^ 63 := by
    rw [← Int.natAbs_mul]
    simp only [int64Min, int64Max] at h
    omega
  rw [Int.natAbs_mul, toLongDouble, toLongDouble, natAbs_roundNearestEven, natAbs_roundNearestEven,
    hp]
  exact rounded_factors_le hproduct

/-- The test for the overflow of a product is right unless rounding hides it. -/
theorem mulSignedOverflow_iff [LongDouble] (lhs rhs : Word) :
    (mulSignedOverflow lhs.toInt rhs.toInt = true
        ↔ ¬ (int64Min ≤ lhs.toInt * rhs.toInt ∧ lhs.toInt * rhs.toInt ≤ int64Max))
      ↔ ¬ OverflowLost lhs.toInt rhs.toInt := by
  rcases LongDouble.mantDig_eq with hp | hp
  · have hexact := CPU.mulDetected_eq hp lhs rhs
    rw [CPU.mulDetected] at hexact
    rw [hexact, overflows_iff]
    refine iff_of_true Iff.rfl fun hlost => ?_
    have := hlost.1
    omega
  · generalize lhs.toInt = x
    generalize rhs.toInt = y
    by_cases hzero : x = 0 ∨ y = 0
    · -- a zero factor: no overflow, and none is reported
      have hfits : int64Min ≤ x * y ∧ x * y ≤ int64Max := by
        rw [mul_eq_zero.mpr hzero]
        decide
      rw [mulSignedOverflow, if_pos hzero]
      exact iff_of_true ⟨nofun, fun h => absurd hfits h⟩ fun hlost => hlost.2.1 hfits
    · by_cases hx : x = -1 ∧ y = int64Min
      · rw [OverflowLost, hx.1, hx.2]
        simp [mulSignedOverflow, int64Min, int64Max]
      · by_cases hy : y = -1 ∧ x = int64Min
        · rw [OverflowLost, hy.1, hy.2]
          simp [mulSignedOverflow, int64Min, int64Max]
        · rw [mulSignedOverflow_double hp hzero hx hy]
          by_cases hfits : int64Min ≤ x * y ∧ x * y ≤ int64Max
          · have hle := rounded_product_le hp hfits
            exact iff_of_true ⟨fun h => absurd hle (not_le.mpr h), fun h => absurd hfits h⟩
              fun hlost => hlost.2.1 hfits
          · constructor
            · intro h hlost
              exact not_le.mpr (h.mpr hfits) hlost.2.2.2.2
            · intro hkept
              refine ⟨fun _ => hfits, fun _ => ?_⟩
              by_contra hle
              exact hkept ⟨hp, hfits, hx, hy, not_lt.mp hle⟩

/-- Multiplication reports the exact product except where its overflow is lost, which takes a
`long double` of 53 bits. -/
theorem mul_flags_exact_iff [LongDouble] (lhs rhs : Word) :
    (ALU.mul lhs rhs).Exact (lhs.toInt * rhs.toInt)
        (¬ (int64Min ≤ lhs.toInt * rhs.toInt ∧ lhs.toInt * rhs.toInt ≤ int64Max))
      ↔ ¬ OverflowLost lhs.toInt rhs.toInt := by
  rw [← mulSignedOverflow_iff, Reference.mul_eq]
  exact ⟨fun h => h.overflow, fun h => exact_makeResult h h⟩

/-- Where `long double` is `double`, `2 ^ 32 * 2 ^ 31` is reported to fit. -/
theorem mul_overflow_lost :
    ¬ ((@ALU.mul ⟨53, .inr rfl⟩ (2 ^ 32) (2 ^ 31)).Exact
      ((2 ^ 32 : Word).toInt * (2 ^ 31 : Word).toInt)
      (¬ (int64Min ≤ (2 ^ 32 : Word).toInt * (2 ^ 31 : Word).toInt ∧
        (2 ^ 32 : Word).toInt * (2 ^ 31 : Word).toInt ≤ int64Max))) := by
  intro h
  have hreported : (@ALU.mul ⟨53, .inr rfl⟩ (2 ^ 32) (2 ^ 31)).overflow = false := by decide
  have hoverflow := h.overflow.mpr (by decide)
  rw [hreported] at hoverflow
  cases hoverflow

end ZeroCpu
