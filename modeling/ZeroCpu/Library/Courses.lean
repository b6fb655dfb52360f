import Mathlib.Data.Nat.Notation
import Mathlib.Logic.Relation

/-!
# Deterministic runs to an end

A process that goes from state to state by a function, until it is in a state that is an end, has one
course and at most one end. So whatever a scheduler does to a process in between, two runs that bring
it to an end bring it to the same one.
-/

namespace Library

variable {α : Type*} {ended : α → Prop} {next : α → α} {first a b : α}

/-- A step that is made from a state that is no end. -/
def StepUntil (ended : α → Prop) (next : α → α) (a b : α) : Prop := ¬ ended a ∧ b = next a

/-- The states that come from `first`, up to the first end. -/
def Course (ended : α → Prop) (next : α → α) (first : α) : α → Prop :=
  Relation.ReflTransGen (StepUntil ended next) first

theorem stepUntil_rightUnique : Relator.RightUnique (StepUntil ended next) :=
  fun _ _ _ hb hc => hb.2.trans hc.2.symm

namespace Course

theorem refl : Course ended next first first := Relation.ReflTransGen.refl

theorem step (h : Course ended next first a) (hgoes : ¬ ended a) : Course ended next first (next a) :=
  Relation.ReflTransGen.tail h ⟨hgoes, rfl⟩

/-- An end is where a course stops. -/
theorem eq_of_ended (h : Course ended next a b) (hended : ended a) : a = b := by
  rcases Relation.ReflTransGen.cases_head h with heq | ⟨c, hstep, -⟩
  · exact heq
  · exact absurd hended hstep.1

/-- A course has at most one end. -/
theorem end_unique (h : Course ended next first a) (hended : ended a) (h' : Course ended next first b)
    (hended' : ended b) : a = b := by
  rcases Relation.ReflTransGen.total_of_right_unique stepUntil_rightUnique h h' with hrest | hrest
  · exact eq_of_ended hrest hended
  · exact (eq_of_ended hrest hended').symm

end Course

/-! ## What is left of a course -/

/-- The steps from a state to the end of its course, and what the end costs. -/
inductive CostToGo (ended : α → Prop) (next : α → α) (last : α → ℕ) : α → ℕ → Prop
  | ended {a : α} (h : ended a) : CostToGo ended next last a (last a)
  | step {a : α} {n : ℕ} (h : ¬ ended a) (rest : CostToGo ended next last (next a) n) :
      CostToGo ended next last a (n + 1)

namespace CostToGo

variable {last : α → ℕ} {n : ℕ}

/-- Where the course has ended only the last cost remains. -/
theorem of_ended (h : CostToGo ended next last a n) (hended : ended a) : n = last a := by
  cases h with
  | ended => rfl
  | step hgoes => exact absurd hended hgoes

/-- Where it goes on, one step is paid and the rest remains. -/
theorem of_not_ended (h : CostToGo ended next last a n) (hgoes : ¬ ended a) :
    ∃ m, n = m + 1 ∧ CostToGo ended next last (next a) m := by
  cases h with
  | ended hended => exact absurd hended hgoes
  | step _ rest => exact ⟨_, rfl, rest⟩

end CostToGo

/-- A course that has come to an end has a cost. -/
theorem Course.exists_cost (h : Course ended next first a) (hended : ended a) (last : α → ℕ) :
    ∃ n, CostToGo ended next last first n := by
  induction h using Relation.ReflTransGen.head_induction_on with
  | refl => exact ⟨_, .ended hended⟩
  | head hstep _ ih =>
    obtain ⟨hgoes, rfl⟩ := hstep
    obtain ⟨n, hrest⟩ := ih
    exact ⟨n + 1, .step hgoes hrest⟩

end Library
