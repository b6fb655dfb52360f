import Mathlib.Data.List.Basic
import Mathlib.Order.Basic
import Mathlib.Order.Lattice
import Mathlib.Tactic.Common

/-!
# Cyclic selection

A selector that keeps a cursor and takes the first candidate after it, starting again from the
smallest one when there is none. The candidates may change between two selections; what a waiting
element `p` is owed is measured against a fixed list that all candidates come from: `waiting` counts
the elements that a walk upwards from the cursor passes before it reaches `p`. Every selection of
another candidate lowers the count, since the candidate was one of them.
-/

namespace Library

namespace Cyclic

variable {α : Type} [LinearOrder α]

/-- The candidates in the order in which they come after the cursor. -/
def rotateAfter (candidates : List α) : Option α → List α
  | none => candidates
  | some c => candidates.dropWhile (· ≤ c) ++ candidates.takeWhile (· ≤ c)

/-- A walk upwards from the cursor passes `u` before it reaches `p`. -/
def Between (cursor : Option α) (p u : α) : Prop :=
  match cursor with
  | none => u < p
  | some c => if c < p then c < u ∧ u < p else c < u ∨ u < p

instance (cursor : Option α) (p u : α) : Decidable (Between cursor p u) := by
  unfold Between
  cases cursor <;> infer_instance

/-- How many elements come before `p`. -/
def waiting (elements : List α) (cursor : Option α) (p : α) : ℕ :=
  elements.countP fun u => Between cursor p u

variable {elements candidates rest : List α} {cursor : Option α} {p s u : α}

/-- Nothing lies before itself. -/
theorem not_between_self : ¬ Between cursor p p := by
  cases cursor with
  | none => exact lt_irrefl p
  | some c =>
    unfold Between
    dsimp only
    split_ifs with h
    · exact fun hb => lt_irrefl p hb.2
    · exact fun hb => hb.elim h (lt_irrefl p)

/-- The cursor itself comes last. -/
theorem not_between_cursor {c : α} : ¬ Between (some c) p c := by
  unfold Between
  dsimp only
  split_ifs with h
  · exact fun hb => lt_irrefl c hb.1
  · exact fun hb => hb.elim (lt_irrefl c) h

/-- Every element but `p` itself may come before it. -/
theorem waiting_lt_length (hp : p ∈ elements) : waiting elements cursor p < elements.length := by
  refine Nat.lt_of_le_of_ne List.countP_le_length fun h => ?_
  have hall := List.countP_eq_length.mp h p hp
  exact not_between_self (of_decide_eq_true hall)

/-- What comes after `s` on the way to `p` came after the cursor too. -/
theorem between_of_between (hs : Between cursor p s) (hu : Between (some s) p u) :
    Between cursor p u ∧ u ≠ s := by
  -- Without a cursor the order does not wrap; with one it wraps at most once, on either side of
  -- `s`.
  cases cursor with
  | none =>
    have hsp : s < p := hs
    unfold Between at hu ⊢
    dsimp only at hu ⊢
    rw [if_pos hsp] at hu
    exact ⟨hu.2, ne_of_gt hu.1⟩
  | some c =>
    unfold Between at hs hu ⊢
    dsimp only at hs hu ⊢
    by_cases hc : c < p
    · rw [if_pos hc] at hs ⊢
      rw [if_pos hs.2] at hu
      exact ⟨⟨hs.1.trans hu.1, hu.2⟩, ne_of_gt hu.1⟩
    · rw [if_neg hc] at hs ⊢
      by_cases hsp : s < p
      · rw [if_pos hsp] at hu
        exact ⟨.inr hu.2, ne_of_gt hu.1⟩
      · rw [if_neg hsp] at hu
        have hcs : c < s := hs.resolve_right hsp
        rcases hu with hu | hu
        · exact ⟨.inl (hcs.trans hu), ne_of_gt hu⟩
        · exact ⟨.inr hu, fun h => hsp (h ▸ hu)⟩

/-- A selection on the way to `p` brings `p` closer. -/
theorem waiting_lt (hs : Between cursor p s) (hmem : s ∈ elements) :
    waiting elements (some s) p < waiting elements cursor p := by
  have hle : ∀ list : List α, waiting list (some s) p ≤ waiting list cursor p := by
    intro list
    refine List.countP_mono_left fun u _ hu => ?_
    exact decide_eq_true (between_of_between hs (of_decide_eq_true hu)).1
  obtain ⟨before, after, rfl⟩ := List.append_of_mem hmem
  have hself : ¬ Between (some s) p s := fun h => (between_of_between hs h).2 rfl
  have hbefore := hle before
  have hafter := hle after
  simp only [waiting] at hbefore hafter ⊢
  rw [List.countP_append, List.countP_append, List.countP_cons_of_neg (by simpa using hself),
    List.countP_cons_of_pos (by simpa using hs)]
  omega

/-- The first candidates of a strictly ascending list up to the cursor are those not above it. -/
theorem mem_takeWhile_iff (h : candidates.Pairwise (· < ·)) (c : α) :
    u ∈ candidates.takeWhile (· ≤ c) ↔ u ∈ candidates ∧ u ≤ c := by
  induction candidates with
  | nil => simp
  | cons x xs ih =>
    obtain ⟨hx, hxs⟩ := List.pairwise_cons.mp h
    by_cases hc : x ≤ c
    · rw [List.takeWhile_cons_of_pos (by simpa using hc), List.mem_cons, List.mem_cons, ih hxs]
      constructor
      · rintro (rfl | ⟨hu, hle⟩)
        · exact ⟨.inl rfl, hc⟩
        · exact ⟨.inr hu, hle⟩
      · rintro ⟨rfl | hu, hle⟩
        · exact .inl rfl
        · exact .inr ⟨hu, hle⟩
    · rw [List.takeWhile_cons_of_neg (by simpa using hc)]
      refine ⟨fun hu => absurd hu List.not_mem_nil, ?_⟩
      rintro ⟨hu, hle⟩
      rcases List.mem_cons.mp hu with rfl | hu
      · exact absurd hle hc
      · exact absurd ((hx u hu).le.trans hle) hc

/-- In a sorted list, dropping up to `c` keeps what is above `c`. -/
theorem mem_dropWhile_iff (h : candidates.Pairwise (· < ·)) (c : α) :
    u ∈ candidates.dropWhile (· ≤ c) ↔ u ∈ candidates ∧ c < u := by
  induction candidates with
  | nil => simp
  | cons x xs ih =>
    obtain ⟨hx, hxs⟩ := List.pairwise_cons.mp h
    by_cases hc : x ≤ c
    · rw [List.dropWhile_cons_of_pos (by simpa using hc), ih hxs, List.mem_cons]
      constructor
      · rintro ⟨hu, hlt⟩
        exact ⟨.inr hu, hlt⟩
      · rintro ⟨rfl | hu, hlt⟩
        · exact absurd hc (not_le.mpr hlt)
        · exact ⟨hu, hlt⟩
    · rw [List.dropWhile_cons_of_neg (by simpa using hc), List.mem_cons]
      constructor
      · rintro (rfl | hu)
        · exact ⟨.inl rfl, not_le.mp hc⟩
        · exact ⟨.inr hu, (not_le.mp hc).trans (hx u hu)⟩
      · exact And.left

/-- The selected candidate comes before every other candidate. -/
theorem between_of_rotateAfter (h : candidates.Pairwise (· < ·))
    (hs : rotateAfter candidates cursor = s :: rest) (hp : p ∈ candidates) (hne : p ≠ s) :
    Between cursor p s := by
  cases cursor with
  | none =>
    have hcandidates : candidates = s :: rest := hs
    rw [hcandidates] at h hp
    exact (List.pairwise_cons.mp h).1 p ((List.mem_cons.mp hp).resolve_left hne)
  | some c =>
    have hs' : candidates.dropWhile (· ≤ c) ++ candidates.takeWhile (· ≤ c) = s :: rest := hs
    unfold Between
    dsimp only
    cases hdrop : candidates.dropWhile (· ≤ c) with
    | cons x xs =>
      -- There are candidates above the cursor, the smallest of which is selected.
      rw [hdrop, List.cons_append] at hs'
      obtain ⟨rfl, -⟩ := List.cons.inj hs'
      have hsorted : (x :: xs).Pairwise (· < ·) := hdrop ▸ h.sublist (List.dropWhile_sublist _)
      have habove : ∀ u, u ∈ candidates → c < u → u ≠ x → x < u := by
        intro u hu hcu hux
        have hmem := hdrop ▸ (mem_dropWhile_iff h c).mpr ⟨hu, hcu⟩
        exact (List.pairwise_cons.mp hsorted).1 u ((List.mem_cons.mp hmem).resolve_left hux)
      have hcx : c < x :=
        ((mem_dropWhile_iff h c).mp (hdrop ▸ List.mem_cons_self)).2
      split_ifs with hc
      · exact ⟨hcx, habove p hp hc hne⟩
      · exact .inl hcx
    | nil =>
      -- No candidate is above the cursor, so the smallest of all is selected.
      have hall : ∀ u ∈ candidates, u ≤ c := by
        intro u hu
        by_contra hlt
        have hmem := (mem_dropWhile_iff h c).mpr ⟨hu, not_le.mp hlt⟩
        rw [hdrop] at hmem
        exact absurd hmem List.not_mem_nil
      have htake : candidates.takeWhile (· ≤ c) = s :: rest := by
        rw [hdrop] at hs'
        exact hs'
      have hsorted : (s :: rest).Pairwise (· < ·) := htake ▸ h.sublist (List.takeWhile_sublist _)
      have hmem : p ∈ s :: rest := htake ▸ (mem_takeWhile_iff h c).mpr ⟨hp, hall p hp⟩
      rw [if_neg (not_lt.mpr (hall p hp))]
      exact .inr ((List.pairwise_cons.mp hsorted).1 p ((List.mem_cons.mp hmem).resolve_left hne))

/-- The candidates rotated are all of them, once each. -/
theorem rotateAfter_perm (candidates : List α) (cursor : Option α) :
    (rotateAfter candidates cursor).Perm candidates := by
  cases cursor with
  | none => exact List.Perm.refl _
  | some c =>
    refine (List.perm_append_comm).trans ?_
    rw [List.takeWhile_append_dropWhile]

/-- Rotating a sorted list after one of its members. -/
theorem rotateAfter_middle {before after : List α}
    (h : (before ++ s :: after).Pairwise (· < ·)) :
    rotateAfter (before ++ s :: after) (some s) = after ++ (before ++ [s]) := by
  obtain ⟨-, hafter, hbefore⟩ := List.pairwise_append.mp h
  have hle : ∀ u ∈ before, decide (u ≤ s) = true :=
    fun u hu => decide_eq_true (hbefore u hu s List.mem_cons_self).le
  have hdrop : after.dropWhile (· ≤ s) = after ∧ after.takeWhile (· ≤ s) = [] := by
    cases after with
    | nil => exact ⟨rfl, rfl⟩
    | cons x xs =>
      have hx : s < x := (List.pairwise_cons.mp hafter).1 x List.mem_cons_self
      have hnot : ¬ decide (x ≤ s) = true := by simpa using hx
      exact ⟨List.dropWhile_cons_of_neg hnot, List.takeWhile_cons_of_neg hnot⟩
  unfold rotateAfter
  dsimp only
  rw [List.dropWhile_append_of_pos hle, List.takeWhile_append_of_pos hle,
    List.dropWhile_cons_of_pos (by simp), List.takeWhile_cons_of_pos (by simp), hdrop.1, hdrop.2]

/-- While the candidates stay the same, a selection moves the selected one to the end. -/
theorem rotateAfter_next (h : candidates.Pairwise (· < ·))
    (hs : rotateAfter candidates cursor = s :: rest) :
    rotateAfter candidates (some s) = rest ++ [s] := by
  cases cursor with
  | none =>
    have hcandidates : candidates = [] ++ s :: rest := hs
    rw [hcandidates] at h ⊢
    exact rotateAfter_middle h
  | some c =>
    have hs' : candidates.dropWhile (· ≤ c) ++ candidates.takeWhile (· ≤ c) = s :: rest := hs
    have hsplit := (List.takeWhile_append_dropWhile (p := (· ≤ c)) (l := candidates)).symm
    cases hdrop : candidates.dropWhile (· ≤ c) with
    | cons x xs =>
      rw [hdrop, List.cons_append] at hs'
      obtain ⟨rfl, hrest⟩ := List.cons.inj hs'
      rw [hdrop] at hsplit
      rw [← hrest, List.append_assoc]
      rw [hsplit] at h
      exact (congrArg (rotateAfter · (some x)) hsplit).trans (rotateAfter_middle h)
    | nil =>
      rw [hdrop, List.nil_append] at hs'
      rw [hdrop, hs', List.append_nil] at hsplit
      have hcandidates : candidates = [] ++ s :: rest := hsplit
      rw [hcandidates] at h ⊢
      exact rotateAfter_middle h

end Cyclic

end Library
