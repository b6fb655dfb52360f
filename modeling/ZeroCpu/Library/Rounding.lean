import Mathlib.Algebra.Order.Ring.Abs
import Mathlib.Algebra.Ring.Parity
import Mathlib.Data.Nat.Log
import Mathlib.Tactic.Ring

/-!
# Integers rounded to a fixed number of significant bits

`roundNearestEven p x` is the integer `x` rounded to nearest, ties to even, with a `p`-bit
significand: the value a binary floating-point format of that precision holds after a conversion or
an operation whose exact result is `x`. Exponent range plays no role here, so every integer has a
rounded value.
-/

namespace Library

/-- A natural number rounded to `p` significant bits, ties to even: the `e` low bits that do not fit
are dropped and the quotient is rounded by their weight. -/
def roundNearestEvenNat (p n : ℕ) : ℕ :=
  let e := Nat.log2 n + 1 - p
  let q := n / 2 ^ e
  let r := n % 2 ^ e
  if 2 * r < 2 ^ e then q * 2 ^ e
  else if 2 * r > 2 ^ e then (q + 1) * 2 ^ e
  else if q % 2 = 0 then q * 2 ^ e
  else (q + 1) * 2 ^ e

/-- An integer rounded to `p` significant bits, ties to even. -/
def roundNearestEven (p : ℕ) (x : ℤ) : ℤ :=
  if x < 0 then -(roundNearestEvenNat p x.natAbs : ℤ) else (roundNearestEvenNat p x.natAbs : ℤ)

/-- Numbers of at most `p` bits are held exactly. -/
theorem roundNearestEvenNat_of_lt {p n : ℕ} (h : n < 2 ^ p) : roundNearestEvenNat p n = n := by
  rcases Nat.eq_zero_or_pos n with rfl | hpos
  · simp [roundNearestEvenNat]
  · have hlog : Nat.log2 n < p := (Nat.log2_lt (by omega)).mpr h
    have he : Nat.log2 n + 1 - p = 0 := by omega
    simp [roundNearestEvenNat, he, Nat.mod_one]

/-- Rounding goes to one of the two neighbours, and up only from the middle on. -/
theorem roundNearestEvenNat_neighbours (p n : ℕ) :
    n / 2 ^ (Nat.log2 n + 1 - p) * 2 ^ (Nat.log2 n + 1 - p) ≤ roundNearestEvenNat p n ∧
      roundNearestEvenNat p n ≤ (n / 2 ^ (Nat.log2 n + 1 - p) + 1) * 2 ^ (Nat.log2 n + 1 - p) ∧
      2 * roundNearestEvenNat p n ≤ 2 * n + 2 ^ (Nat.log2 n + 1 - p) := by
  simp only [roundNearestEvenNat]
  generalize Nat.log2 n + 1 - p = e
  have hdiv := Nat.div_add_mod' n (2 ^ e)
  have hstep : (n / 2 ^ e + 1) * 2 ^ e = n / 2 ^ e * 2 ^ e + 2 ^ e := Nat.succ_mul _ _
  split_ifs <;> omega

/-- Rounding does not cross a power of two downwards. -/
theorem two_pow_le_roundNearestEvenNat {p k n : ℕ} (hp : 0 < p) (h : 2 ^ k ≤ n) :
    2 ^ k ≤ roundNearestEvenNat p n := by
  have hn : n ≠ 0 := by
    have := Nat.two_pow_pos k
    omega
  have hk : k ≤ Nat.log2 n := (Nat.le_log2 hn).mpr h
  refine le_trans ?_ (roundNearestEvenNat_neighbours p n).1
  obtain ⟨e, he⟩ : ∃ e, Nat.log2 n + 1 - p = e := ⟨_, rfl⟩
  rw [he]
  -- the quotient keeps the leading bit, so scaling it back is at least `2 ^ log2 n`
  have hlog : 2 ^ (Nat.log2 n - e) * 2 ^ e = 2 ^ Nat.log2 n := by
    rw [← pow_add, Nat.sub_add_cancel (by omega)]
  have hquot : 2 ^ (Nat.log2 n - e) ≤ n / 2 ^ e :=
    (Nat.le_div_iff_mul_le (Nat.two_pow_pos e)).mpr (hlog ▸ Nat.log2_self_le hn)
  calc 2 ^ k ≤ 2 ^ Nat.log2 n := Nat.pow_le_pow_right (by omega) hk
    _ = 2 ^ (Nat.log2 n - e) * 2 ^ e := hlog.symm
    _ ≤ n / 2 ^ e * 2 ^ e := Nat.mul_le_mul_right _ hquot

/-- Rounding does not cross a power of two upwards. -/
theorem roundNearestEvenNat_le_two_pow {p k n : ℕ} (hp : 0 < p) (h : n < 2 ^ k) :
    roundNearestEvenNat p n ≤ 2 ^ k := by
  rcases Nat.eq_zero_or_pos n with rfl | hpos
  · rw [roundNearestEvenNat_of_lt (Nat.two_pow_pos p)]
    omega
  · have hk : Nat.log2 n < k := (Nat.log2_lt (by omega)).mpr h
    refine le_trans (roundNearestEvenNat_neighbours p n).2.1 ?_
    obtain ⟨e, he⟩ : ∃ e, Nat.log2 n + 1 - p = e := ⟨_, rfl⟩
    rw [he]
    have hpow : 2 ^ (k - e) * 2 ^ e = 2 ^ k := by
      rw [← pow_add, Nat.sub_add_cancel (by omega)]
    have hquot : n / 2 ^ e < 2 ^ (k - e) :=
      (Nat.div_lt_iff_lt_mul (Nat.two_pow_pos e)).mpr (hpow.symm ▸ h)
    calc (n / 2 ^ e + 1) * 2 ^ e ≤ 2 ^ (k - e) * 2 ^ e := Nat.mul_le_mul_right _ hquot
      _ = 2 ^ k := hpow

/-- Rounding up adds at most half a unit in the last place. -/
theorem roundNearestEvenNat_error (p n : ℕ) :
    roundNearestEvenNat p n * 2 ^ p ≤ n * (2 ^ p + 1) := by
  by_cases hlt : n < 2 ^ p
  · rw [roundNearestEvenNat_of_lt hlt]
    exact Nat.mul_le_mul_left _ (by omega)
  · have hn : n ≠ 0 := by
      have := Nat.two_pow_pos p
      omega
    have hlog : p ≤ Nat.log2 n := (Nat.le_log2 hn).mpr (Nat.le_of_not_lt hlt)
    have hup := (roundNearestEvenNat_neighbours p n).2.2
    obtain ⟨e, he⟩ : ∃ e, Nat.log2 n + 1 - p = e := ⟨_, rfl⟩
    rw [he] at hup
    -- half of the weight of the dropped bits is what the significand's last bit is worth
    have hweight : 2 ^ e * 2 ^ p ≤ 2 * n := by
      calc 2 ^ e * 2 ^ p = 2 * 2 ^ Nat.log2 n := by
            rw [← pow_add, ← pow_succ']
            congr 1
            omega
        _ ≤ 2 * n := Nat.mul_le_mul_left _ (Nat.log2_self_le hn)
    have hscaled := Nat.mul_le_mul_right (2 ^ p) hup
    rw [Nat.add_mul, Nat.mul_assoc, Nat.mul_assoc] at hscaled
    rw [Nat.mul_add, Nat.mul_one]
    omega

/-- Integers of at most `p` bits are held exactly. -/
theorem roundNearestEven_of_lt {p : ℕ} {x : ℤ} (h : x.natAbs < 2 ^ p) :
    roundNearestEven p x = x := by
  rw [roundNearestEven, roundNearestEvenNat_of_lt h]
  split_ifs <;> omega

/-- Rounding an integer that needs more than `p` bits keeps its sign and at least `p` bits. -/
theorem roundNearestEven_of_le {p : ℕ} {x : ℤ} (hp : 0 < p) (h : 2 ^ p ≤ x.natAbs) :
    (x < 0 → roundNearestEven p x ≤ -2 ^ p) ∧ (0 ≤ x → 2 ^ p ≤ roundNearestEven p x) := by
  have hle : ((2 ^ p : ℕ) : ℤ) ≤ roundNearestEvenNat p x.natAbs :=
    Int.ofNat_le.mpr (two_pow_le_roundNearestEvenNat hp h)
  push_cast at hle
  constructor
  · intro hx
    rw [roundNearestEven, if_pos hx]
    omega
  · intro hx
    rw [roundNearestEven, if_neg (by omega)]
    exact hle

end Library
