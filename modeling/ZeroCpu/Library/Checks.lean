import Mathlib.Tactic.Common

/-!
# Guarded computations

Validation code is a sequence of rejections followed by a result. `reject p e` fails with `e` when
`p` holds; the lemmas below read the outcome of such a sequence in `Except`.
-/

namespace Library

variable {ε α β : Type}

/-- Fail with `e` when `p` holds. -/
def reject (p : Prop) [Decidable p] (e : ε) : Except ε Unit := if p then .error e else .ok ()

/-- A check passes where the condition it rejects is false. -/
@[simp] theorem reject_eq_ok {p : Prop} [Decidable p] {e : ε} {u : Unit} :
    reject p e = .ok u ↔ ¬ p := by
  unfold reject
  split_ifs with h <;> simp [h]

theorem reject_of_not {p : Prop} [Decidable p] {e : ε} (h : ¬ p) : reject p e = .ok () :=
  reject_eq_ok.mpr h

theorem reject_of_pos {p : Prop} [Decidable p] {e : ε} (h : p) : reject p e = .error e :=
  if_pos h

/-- A bind succeeds exactly when both of its parts do. -/
theorem bind_eq_ok {x : Except ε α} {f : α → Except ε β} {b : β} :
    x >>= f = .ok b ↔ ∃ a, x = .ok a ∧ f a = .ok b := by
  rcases x with e | a
  · simp [Bind.bind, Except.bind]
  · simp [Bind.bind, Except.bind]

@[simp] theorem ok_bind (a : α) (f : α → Except ε β) : (Except.ok a >>= f) = f a := rfl

@[simp] theorem error_bind (e : ε) (f : α → Except ε β) :
    ((Except.error e : Except ε α) >>= f) = .error e := rfl

/-- A loop of checks passes exactly when every round does. -/
theorem forM_eq_ok {f : α → Except ε Unit} {xs : List α} :
    xs.forM f = .ok () ↔ ∀ x ∈ xs, f x = .ok () := by
  induction xs with
  | nil => exact ⟨fun _ _ hx => absurd hx List.not_mem_nil, fun _ => rfl⟩
  | cons x xs ih =>
    show (f x >>= fun _ => xs.forM f) = .ok () ↔ _
    rw [bind_eq_ok, List.forall_mem_cons, ← ih]
    exact ⟨fun ⟨_, hx, hxs⟩ => ⟨hx, hxs⟩, fun ⟨hx, hxs⟩ => ⟨(), hx, hxs⟩⟩

/-- What a traversal returns is made of what it computes for the elements. -/
theorem mem_of_mapM_ok {f : α → Except ε β} {xs : List α} {ys : List β} (h : xs.mapM f = .ok ys) :
    ∀ y ∈ ys, ∃ x ∈ xs, f x = .ok y := by
  induction xs generalizing ys with
  | nil =>
    obtain rfl := Except.ok.inj h
    exact fun y hy => absurd hy List.not_mem_nil
  | cons x xs ih =>
    rw [List.mapM_cons, bind_eq_ok] at h
    obtain ⟨y, hy, h⟩ := h
    obtain ⟨ys', hys, h⟩ := bind_eq_ok.mp h
    obtain rfl := Except.ok.inj h
    intro other hother
    rcases List.mem_cons.mp hother with rfl | hmem
    · exact ⟨x, List.mem_cons_self, hy⟩
    · obtain ⟨x', hx', hf⟩ := ih hys other hmem
      exact ⟨x', List.mem_cons_of_mem _ hx', hf⟩

end Library
