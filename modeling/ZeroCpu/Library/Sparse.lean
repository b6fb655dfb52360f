import Mathlib.Data.List.Basic
import Mathlib.Data.List.GetD
import Mathlib.Order.MinMax
import Mathlib.Tactic.Common

/-!
# Strings that grow where they are written

A sparse string has a size and reads as a fixed blank value from its size on. A patch writes its
data at an offset and extends the string to its end; a gap that it leaves is blank.
-/

namespace Library

variable {α : Type*} {blank : α}

/-- A string that reads as blank from its size on. -/
@[ext]
structure Sparse (blank : α) where
  size : ℕ
  get : ℕ → α
  get_of_le : ∀ i, size ≤ i → get i = blank

/-- Data to be written at an offset. -/
structure Patch (α : Type*) where
  offset : ℕ
  data : List α

namespace Patch

/-- The position after the last one of the patch. -/
def stop (p : Patch α) : ℕ := p.offset + p.data.length

/-- The patch has a value for the position. -/
def Covers (p : Patch α) (i : ℕ) : Prop := p.offset ≤ i ∧ i < p.stop

instance (p : Patch α) (i : ℕ) : Decidable (p.Covers i) := inferInstanceAs (Decidable (_ ∧ _))

/-- The patches cover no position both. -/
def Disjoint (p q : Patch α) : Prop := ∀ i, ¬ (p.Covers i ∧ q.Covers i)

end Patch

namespace Sparse

/-- The string of a list. -/
def ofList (blank : α) (xs : List α) : Sparse blank where
  size := xs.length
  get i := xs.getD i blank
  get_of_le _ h := List.getD_eq_default _ _ h

/-- A list is the string it stands for. -/
theorem ofList_injective {xs ys : List α} (h : ofList blank xs = ofList blank ys) : xs = ys := by
  have hsize : xs.length = ys.length := congrArg size h
  refine List.ext_getElem hsize fun i hx hy => ?_
  have hget : xs.getD i blank = ys.getD i blank := congrFun (congrArg get h) i
  rwa [List.getD_eq_getElem _ _ hx, List.getD_eq_getElem _ _ hy] at hget

/-- Write a patch. -/
def write (s : Sparse blank) (p : Patch α) : Sparse blank where
  size := max s.size p.stop
  get i := if p.Covers i then p.data.getD (i - p.offset) blank else s.get i
  get_of_le i h := by
    rw [if_neg fun hcovers => absurd hcovers.2 (not_lt.mpr (le_trans (le_max_right _ _) h))]
    exact s.get_of_le i (le_trans (le_max_left _ _) h)

/-- Patches that cover no common index commute. -/
theorem write_comm (s : Sparse blank) {p q : Patch α} (h : p.Disjoint q) :
    (s.write p).write q = (s.write q).write p := by
  refine Sparse.ext ?_ ?_
  · exact max_right_comm _ _ _
  · funext i
    show (if q.Covers i then q.data.getD (i - q.offset) blank
        else if p.Covers i then p.data.getD (i - p.offset) blank else s.get i)
      = if p.Covers i then p.data.getD (i - p.offset) blank
        else if q.Covers i then q.data.getD (i - q.offset) blank else s.get i
    by_cases hp : p.Covers i
    · rw [if_neg fun hq => h i ⟨hp, hq⟩, if_pos hp, if_pos hp]
    · rw [if_neg hp, if_neg hp]

/-- Write patches in order. -/
def writeAll (s : Sparse blank) (patches : List (Patch α)) : Sparse blank := patches.foldl write s

/-- No patches, no change. -/
@[simp]
theorem writeAll_nil (s : Sparse blank) : s.writeAll [] = s := rfl

/-- Patches are written in order. -/
@[simp]
theorem writeAll_cons (s : Sparse blank) (p : Patch α) (patches : List (Patch α)) :
    s.writeAll (p :: patches) = (s.write p).writeAll patches := rfl

/-- The value that the last patch over an index writes there. -/
def lastWritten (blank : α) (patches : List (Patch α)) (i : ℕ) : Option α :=
  (patches.reverse.find? fun p => p.Covers i).map fun p => p.data.getD (i - p.offset) blank

/-- The last patch over an index decides what is read there. -/
theorem get_writeAll (s : Sparse blank) (patches : List (Patch α)) (i : ℕ) :
    (s.writeAll patches).get i = (lastWritten blank patches i).getD (s.get i) := by
  induction patches generalizing s with
  | nil => rfl
  | cons p patches ih =>
    rw [writeAll_cons, ih, lastWritten, lastWritten, List.reverse_cons, List.find?_append]
    cases patches.reverse.find? fun p => p.Covers i with
    | some last => rfl
    | none =>
      -- No later patch is over the index: the first patch decides.
      by_cases hp : p.Covers i
      · simp [hp, write]
      · simp [hp, write]

/-- The size is the largest stop. -/
theorem size_writeAll (s : Sparse blank) (patches : List (Patch α)) :
    (s.writeAll patches).size = (patches.map Patch.stop).foldl max s.size := by
  induction patches generalizing s with
  | nil => rfl
  | cons p patches ih => exact ih (s.write p)

end Sparse

end Library
