import Mathlib.Data.List.GetD
import Mathlib.Data.List.Induction
import Mathlib.Tactic.Common

/-!
# Fixed-width words as byte strings

`leBytes n v` and `beBytes n v` are the `n` bytes of a word, least and most significant byte first,
each taken by a right shift and a truncation. `leWord w` and `beWord w` assemble a word from bytes by
shifting and or-ing, one byte at a time.

The laws are the two round trips for words of exactly `n` bytes, for both byte orders. They all
come from one bit-level description of `leWord` (`getLsbD_leWord`).
-/

namespace Library

/-- The `n` bytes of `v`, least significant first: byte `i` is `(v >> 8 i) & 0xFF`. -/
def leBytes {w : ℕ} (n : ℕ) (v : BitVec w) : List UInt8 :=
  (List.range n).map fun i => UInt8.ofBitVec ((v >>> (8 * i)).setWidth 8)

/-- The `n` bytes of `v`, most significant first: byte `i` is `(v >> 8 (n - 1 - i)) & 0xFF`. -/
def beBytes {w : ℕ} (n : ℕ) (v : BitVec w) : List UInt8 :=
  (List.range n).map fun i => UInt8.ofBitVec ((v >>> (8 * (n - 1 - i))).setWidth 8)

/-- Or together the bytes `bs`, byte `i` shifted left by `8 i`. -/
def leWord (w : ℕ) (bs : List UInt8) : BitVec w :=
  bs.zipIdx.foldl (fun v p => v ||| (BitVec.setWidth w p.1.toBitVec) <<< (8 * p.2)) 0#w

/-- Shift the accumulated word left by eight and or in the next byte, for each byte of `bs`. -/
def beWord (w : ℕ) (bs : List UInt8) : BitVec w :=
  bs.foldl (fun v b => (v <<< 8) ||| BitVec.setWidth w b.toBitVec) 0#w

@[simp] theorem length_leBytes {w : ℕ} (n : ℕ) (v : BitVec w) : (leBytes n v).length = n := by
  simp [leBytes]

@[simp] theorem length_beBytes {w : ℕ} (n : ℕ) (v : BitVec w) : (beBytes n v).length = n := by
  simp [beBytes]

theorem getElem?_leBytes {w n i : ℕ} (v : BitVec w) (hi : i < n) :
    (leBytes n v)[i]? = some (UInt8.ofBitVec ((v >>> (8 * i)).setWidth 8)) := by
  simp [leBytes, hi]

theorem leWord_append (w : ℕ) (bs : List UInt8) (b : UInt8) :
    leWord w (bs ++ [b]) = leWord w bs ||| (BitVec.setWidth w b.toBitVec) <<< (8 * bs.length) := by
  simp [leWord, List.zipIdx_append, List.foldl_append]

/-- Bit `k` of the assembled word is bit `k % 8` of byte `k / 8`. -/
theorem getLsbD_leWord (w : ℕ) (bs : List UInt8) (k : ℕ) :
    (leWord w bs).getLsbD k
      = (decide (k < w) && (bs.getD (k / 8) 0).toBitVec.getLsbD (k % 8)) := by
  induction bs using List.reverseRecOn with
  | nil => simp [leWord]
  | append_singleton bs b ih =>
    rw [leWord_append, BitVec.getLsbD_or, ih, BitVec.getLsbD_shiftLeft, BitVec.getLsbD_setWidth]
    by_cases hk : k < w
    · rcases Nat.lt_trichotomy (k / 8) bs.length with h | h | h
      · have hlt : k < 8 * bs.length := by omega
        rw [List.getD_append _ _ _ _ h]
        simp [hk, hlt]
      · have h8 : k - 8 * bs.length = k % 8 := by omega
        have hge : ¬ k < 8 * bs.length := by omega
        have hw : k % 8 < w := by omega
        simp [hk, hge, h8, h, hw]
      · have hge : 8 ≤ k - 8 * bs.length := by omega
        have h1 : bs.getD (k / 8) 0 = 0 := List.getD_eq_default _ _ (by omega)
        have h2 : (bs ++ [b]).getD (k / 8) 0 = 0 :=
          List.getD_eq_default _ _ (by simp; omega)
        have h3 : b.toBitVec.getLsbD (k - 8 * bs.length) = false :=
          BitVec.getLsbD_of_ge _ _ hge
        rw [h1, h2, h3]
        simp
    · simp [hk]

/-- Reading back the little-endian bytes of an `8 n`-bit word. -/
theorem leWord_leBytes {n : ℕ} (v : BitVec (8 * n)) : leWord (8 * n) (leBytes n v) = v := by
  apply BitVec.eq_of_getLsbD_eq
  intro k hk
  have hbyte : (leBytes n v).getD (k / 8) 0
      = UInt8.ofBitVec ((v >>> (8 * (k / 8))).setWidth 8) := by
    rw [List.getD_eq_getElem?_getD, getElem?_leBytes v (by omega), Option.getD_some]
  have h8 : 8 * (k / 8) + k % 8 = k := by omega
  rw [getLsbD_leWord, hbyte]
  simp [hk, h8, Nat.mod_lt]

/-- Writing back the word assembled from `n` little-endian bytes. -/
theorem leBytes_leWord (bs : List UInt8) : leBytes bs.length (leWord (8 * bs.length) bs) = bs := by
  apply List.ext_getElem?
  intro i
  by_cases hi : i < bs.length
  · rw [getElem?_leBytes _ hi, List.getElem?_eq_getElem hi]
    congr 1
    apply UInt8.toBitVec_inj.mp
    apply BitVec.eq_of_getLsbD_eq
    intro k hk
    have hdiv : (8 * i + k) / 8 = i := by omega
    have hmod : (8 * i + k) % 8 = k := by omega
    have hlt : 8 * i + k < 8 * bs.length := by omega
    have hbit := getLsbD_leWord (8 * bs.length) bs (8 * i + k)
    rw [hdiv, hmod, List.getD_eq_getElem _ _ hi] at hbit
    simpa [hk, hlt] using hbit
  · rw [List.getElem?_eq_none (by simpa using hi), List.getElem?_eq_none (by omega)]

/-- Big-endian assembly is little-endian assembly of the reversed bytes. -/
theorem beWord_eq_leWord_reverse (w : ℕ) (bs : List UInt8) : beWord w bs = leWord w bs.reverse := by
  have key : ∀ (bs : List UInt8) (v : BitVec w),
      bs.foldl (fun (v : BitVec w) b => (v <<< 8) ||| BitVec.setWidth w b.toBitVec) v
        = (v <<< (8 * bs.length)) ||| leWord w bs.reverse := by
    intro bs
    induction bs with
    | nil => intro v; simp [leWord]
    | cons b bs ih =>
      intro v
      rw [List.foldl_cons, ih, List.reverse_cons, leWord_append, List.length_reverse,
        List.length_cons, BitVec.shiftLeft_or_distrib, BitVec.or_assoc, ← BitVec.shiftLeft_add,
        show 8 + 8 * bs.length = 8 * (bs.length + 1) by omega,
        BitVec.or_comm (leWord w bs.reverse)]
  have h := key bs 0#w
  rw [BitVec.zero_shiftLeft, BitVec.zero_or] at h
  exact h

/-- The big-endian bytes are the little-endian bytes reversed. -/
theorem beBytes_eq_reverse {w : ℕ} (n : ℕ) (v : BitVec w) : beBytes n v = (leBytes n v).reverse := by
  apply List.ext_getElem (by simp)
  intro i h1 h2
  have hi : i < n := by simpa using h1
  simp [beBytes, leBytes]

/-- Reading back the big-endian bytes of an `8 n`-bit word. -/
theorem beWord_beBytes {n : ℕ} (v : BitVec (8 * n)) : beWord (8 * n) (beBytes n v) = v := by
  rw [beWord_eq_leWord_reverse, beBytes_eq_reverse, List.reverse_reverse, leWord_leBytes]

/-- Writing back the word assembled from `n` big-endian bytes. -/
theorem beBytes_beWord (bs : List UInt8) : beBytes bs.length (beWord (8 * bs.length) bs) = bs := by
  have h := leBytes_leWord bs.reverse
  rw [List.length_reverse] at h
  rw [beBytes_eq_reverse, beWord_eq_leWord_reverse, h, List.reverse_reverse]

/-! ## Cutting byte strings -/

/-- The byte at an offset, and what follows it. -/
theorem drop_eq_getD_cons {bytes : List UInt8} (offset : ℕ) (h : offset < bytes.length) :
    bytes.drop offset = bytes.getD offset 0 :: bytes.drop (offset + 1) := by
  rw [List.getD_eq_getElem _ _ h]
  exact List.drop_eq_getElem_cons h

theorem drop_eq_take_append (bytes : List UInt8) (offset count : ℕ) :
    bytes.drop offset = (bytes.drop offset).take count ++ bytes.drop (offset + count) := by
  rw [← List.drop_drop, List.take_append_drop]

end Library
