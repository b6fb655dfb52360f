import Mathlib.Data.List.Perm.Basic
import Mathlib.Tactic.Common

/-!
# First match among exclusive candidates

A lookup that takes the first entry of a list with a property depends on the order of the list only
when two entries can have the property. `Exclusive p xs` says that no two do.
-/

namespace Library

variable {α : Type}

/-- No two entries of the list satisfy `p`. -/
def Exclusive (p : α → Bool) (xs : List α) : Prop :=
  xs.Pairwise fun x y => ¬ (p x = true ∧ p y = true)

variable {p : α → Bool} {xs ys : List α}

theorem Exclusive.perm (h : Exclusive p xs) (hperm : xs.Perm ys) : Exclusive p ys :=
  (hperm.pairwise_iff fun {_ _} hxy hyx => hxy ⟨hyx.2, hyx.1⟩).mp h

/-- The only entry with the property is the first one. -/
theorem Exclusive.find?_eq_some (h : Exclusive p xs) {x : α} (hmem : x ∈ xs) (hx : p x = true) :
    xs.find? p = some x := by
  induction xs with
  | nil => exact absurd hmem List.not_mem_nil
  | cons y xs ih =>
    obtain ⟨hhead, htail⟩ := List.pairwise_cons.mp h
    rcases List.mem_cons.mp hmem with rfl | hmem
    · exact List.find?_cons_of_pos hx
    · have hy : ¬ p y = true := fun hy => hhead x hmem ⟨hy, hx⟩
      rw [List.find?_cons_of_neg hy]
      exact ih htail hmem

theorem Exclusive.find?_perm (h : Exclusive p xs) (hperm : xs.Perm ys) :
    xs.find? p = ys.find? p := by
  cases hfound : xs.find? p with
  | none =>
    symm
    rw [List.find?_eq_none] at hfound ⊢
    exact fun y hy => hfound y (hperm.mem_iff.mpr hy)
  | some x =>
    symm
    exact (h.perm hperm).find?_eq_some (hperm.mem_iff.mp (List.mem_of_find?_eq_some hfound))
      (List.find?_some hfound)

/-- At most one entry has the property. -/
theorem Exclusive.length_filter (h : Exclusive p xs) : (xs.filter p).length ≤ 1 := by
  induction xs with
  | nil => exact Nat.zero_le 1
  | cons y xs ih =>
    obtain ⟨hhead, htail⟩ := List.pairwise_cons.mp h
    by_cases hy : p y = true
    · have hnone : xs.filter p = [] := List.filter_eq_nil_iff.mpr fun x hx hp => hhead x hx ⟨hy, hp⟩
      rw [List.filter_cons_of_pos hy, hnone]
      exact Nat.le_refl 1
    · rw [List.filter_cons_of_neg hy]
      exact ih htail

end Library
