import Mathlib.Data.List.Perm.Basic

/-!
# Queues that serve by choice

An element leaves such a queue when it is the oldest one that a predicate accepts, and the predicate
may be another one each time. A `Ledger` holds everything that was put into the queue and taken out
of it. It stays balanced, and within a class of elements that no predicate tells apart the elements
leave in the order in which they came.
-/

namespace Library

variable {α κ : Type*}

/-- `a` is the oldest element of the queue that `p` accepts, and `rest` is the queue without it. -/
structure TakesOldest (p : α → Prop) (queue : List α) (a : α) (rest : List α) : Prop where
  split : ∃ before after, queue = before ++ a :: after ∧ rest = before ++ after ∧ ∀ b ∈ before, ¬ p b
  accepted : p a

namespace TakesOldest

variable {p : α → Prop} {queue rest : List α} {a : α}

/-- What `find?` gives is the oldest that passes, and `eraseP` takes it out. -/
theorem of_find? {q : α → Bool} (h : queue.find? q = some a) :
    TakesOldest (fun b => q b = true) queue a (queue.eraseP q) := by
  obtain ⟨ha, before, after, rfl, hbefore⟩ := List.find?_eq_some_iff_append.mp h
  have hnone : ∀ b ∈ before, ¬ q b = true := fun b hb => by simpa using hbefore b hb
  refine ⟨⟨before, after, rfl, ?_, hnone⟩, ha⟩
  rw [List.eraseP_append_right _ hnone, List.eraseP_cons_of_pos ha]

/-- Predicates that agree on the queue have the same oldest. -/
theorem imp {q : α → Prop} (h : TakesOldest p queue a rest) (hq : ∀ b ∈ queue, p b ↔ q b) :
    TakesOldest q queue a rest := by
  obtain ⟨⟨before, after, rfl, hrest, hbefore⟩, ha⟩ := h
  refine ⟨⟨before, after, rfl, hrest, fun b hb hqb => ?_⟩, ?_⟩
  · exact hbefore b hb ((hq b (List.mem_append_left _ hb)).mpr hqb)
  · exact (hq a (List.mem_append_right _ List.mem_cons_self)).mp ha

theorem mem (h : TakesOldest p queue a rest) : a ∈ queue := by
  obtain ⟨⟨before, after, rfl, -⟩, -⟩ := h
  exact List.mem_append_right _ List.mem_cons_self

/-- One element leaves, and no other. -/
theorem perm (h : TakesOldest p queue a rest) : queue.Perm (a :: rest) := by
  obtain ⟨⟨before, after, rfl, rfl, -⟩, -⟩ := h
  exact List.perm_middle

/-- A class that `p` accepts with the element loses its oldest member, every other class nothing. -/
theorem filter (h : TakesOldest p queue a rest) {k : α → Bool}
    (hk : ∀ b, k b = true → k a = true → p b) :
    queue.filter k = (if k a then [a] else []) ++ rest.filter k := by
  obtain ⟨⟨before, after, rfl, rfl, hbefore⟩, -⟩ := h
  rw [List.filter_append, List.filter_append]
  split_ifs with ha
  · have hnone : before.filter k = [] := by
      rw [List.filter_eq_nil_iff]
      exact fun b hb hkb => hbefore b hb (hk b hkb ha)
    rw [hnone, List.filter_cons_of_pos ha, List.nil_append, List.nil_append, List.singleton_append]
  · rw [List.filter_cons_of_neg ha, List.nil_append]

end TakesOldest

/-- What was put into a queue, what was taken out of it, and the queue. -/
structure Ledger (α : Type*) where
  made : List α
  taken : List α
  queue : List α

/-- Nothing is lost or duplicated, and the members of a class leave in the order they came. -/
structure Ledger.Balanced (classes : κ → α → Bool) (ledger : Ledger α) : Prop where
  perm : ledger.made.Perm (ledger.taken ++ ledger.queue)
  order : ∀ key, ledger.made.filter (classes key)
    = ledger.taken.filter (classes key) ++ ledger.queue.filter (classes key)

namespace Ledger.Balanced

variable {classes : κ → α → Bool} {ledger : Ledger α}

/-- Nothing has been taken out of a new queue. -/
theorem init (queue : List α) : Balanced classes ⟨queue, [], queue⟩ :=
  ⟨.refl _, fun _ => rfl⟩

/-- A new item keeps the ledger balanced. -/
theorem put (h : Balanced classes ledger) (a : α) :
    Balanced classes ⟨ledger.made ++ [a], ledger.taken, ledger.queue ++ [a]⟩ where
  perm := by
    rw [← List.append_assoc]
    exact h.perm.append_right [a]
  order key := by
    rw [List.filter_append, List.filter_append, h.order, List.append_assoc]

/-- Taking the oldest of a kind keeps the ledger balanced, if items of one class are alike. -/
theorem take (h : Balanced classes ledger) {p : α → Prop} {a : α} {rest : List α}
    (htake : TakesOldest p ledger.queue a rest)
    (hclasses : ∀ key b, classes key b = true → classes key a = true → p b) :
    Balanced classes ⟨ledger.made, ledger.taken ++ [a], rest⟩ where
  perm := by
    refine h.perm.trans ?_
    rw [List.append_assoc]
    exact htake.perm.append_left _
  order key := by
    rw [h.order, htake.filter (hclasses key), List.filter_append, List.append_assoc]
    split_ifs with ha
    · rw [List.filter_cons_of_pos ha, List.filter_nil]
    · rw [List.filter_cons_of_neg ha, List.filter_nil]

end Ledger.Balanced

end Library
