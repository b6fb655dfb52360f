import ZeroCpu.Library.Exec

/-!
# Computations that cannot be told apart

`Alike R m n` says that from `R`-related states `m` and `n` both return the same value or both throw
the same error, and reach `R`-related states again. It is `Related` for two implementations of one
interface, so a client that is built from alike parts is alike itself: there is one rule for each way
of building a computation.
-/

namespace Library

namespace Exec

variable {ε σ τ α β : Type} {R : σ → τ → Prop}

/-- The same outcome, in related states. -/
def Alike (R : σ → τ → Prop) (m : Exec ε σ α) (n : Exec ε τ α) : Prop :=
  Related R m n (fun a b s t => a = b ∧ R s t) (fun e e' s t => e = e' ∧ R s t)

/-- Alike computations end alike. -/
theorem Alike.exists_outcome {m : Exec ε σ α} {n : Exec ε τ α} (h : Alike R m n) {s : σ} {t : τ}
    (hst : R s t) : ∃ result s' t', m s = (result, s') ∧ n t = (result, t') ∧ R s' t' := by
  have hpost := h s t hst
  rcases hm : m s with ⟨e | a, s'⟩ <;> rcases hn : n t with ⟨e' | b, t'⟩ <;> rw [hm, hn] at hpost
  · obtain ⟨rfl, h'⟩ := hpost
    exact ⟨_, s', t', rfl, rfl, h'⟩
  · exact hpost.elim
  · exact hpost.elim
  · obtain ⟨rfl, h'⟩ := hpost
    exact ⟨_, s', t', rfl, rfl, h'⟩

/-- Computations that always end alike are alike. -/
theorem Alike.of_outcome {m : Exec ε σ α} {n : Exec ε τ α} (h : ∀ s t, R s t →
    ∃ result s' t', m s = (result, s') ∧ n t = (result, t') ∧ R s' t') : Alike R m n := by
  intro s t hst
  obtain ⟨result, s', t', hm, hn, h'⟩ := h s t hst
  rw [hm, hn]
  cases result with
  | error e => exact ⟨rfl, h'⟩
  | ok a => exact ⟨rfl, h'⟩

theorem Alike.pure (a : α) : Alike R (pure a : Exec ε σ α) (Pure.pure a) :=
  Related.pure fun _ _ h => ⟨rfl, h⟩

theorem Alike.throw (e : ε) : Alike R (throw e : Exec ε σ α) (Exec.throw e) :=
  Related.throw fun _ _ h => ⟨rfl, h⟩

/-- The same result is alike. -/
theorem Alike.lift (r : Except ε α) : Alike R (lift r : Exec ε σ α) (Exec.lift r) := by
  cases r with
  | error e => exact Alike.throw e
  | ok a => exact Alike.pure a

/-- The same check is alike. -/
theorem Alike.require (b : Bool) (e : ε) :
    Alike R (require b e : Exec ε σ Unit) (Exec.require b e) := by
  cases b with
  | true => exact Alike.pure ()
  | false => exact Alike.throw e

/-- Two alike parts are alike in sequence. -/
theorem Alike.bind {m : Exec ε σ α} {n : Exec ε τ α} {f : α → Exec ε σ β} {g : α → Exec ε τ β}
    (hm : Alike R m n) (hf : ∀ a, Alike R (f a) (g a)) : Alike R (m >>= f) (n >>= g) :=
  Related.bind hm fun a b s t h => by
    obtain ⟨rfl, hst⟩ := h
    exact hf a s t hst

/-- Both may use the states they read. -/
theorem Alike.read {f : σ → Exec ε σ β} {g : τ → Exec ε τ β}
    (h : ∀ s t, R s t → Alike R (f s) (g t)) : Alike R (get >>= f) (get >>= g) :=
  fun s t hst => h s t hst s t hst

theorem Alike.modify {f : σ → σ} {g : τ → τ} (h : ∀ s t, R s t → R (f s) (g t)) :
    Alike R (modify f : Exec ε σ Unit) (modify g) :=
  Related.modify fun s t hst => ⟨rfl, h s t hst⟩

/-- A computation is alike itself. -/
theorem Alike.refl (m : Exec ε σ α) : Alike Eq m m := by
  refine .of_outcome fun s t hst => ?_
  obtain rfl := hst
  exact ⟨(m s).1, (m s).2, (m s).2, rfl, rfl, rfl⟩

theorem Alike.gets {f : σ → α} {g : τ → α} (h : ∀ s t, R s t → f s = g t) :
    Alike R (gets f : Exec ε σ α) (Exec.gets g) :=
  .of_outcome fun s t hst => ⟨_, s, t, rfl, by rw [gets_apply, h s t hst], hst⟩

/-- Catching a throw is alike. -/
theorem Alike.attempt {ε' : Type} {m : Exec ε σ α} {n : Exec ε τ α} (h : Alike R m n) :
    Alike R (attempt m : Exec ε' σ (Except ε α)) (Exec.attempt n) := by
  refine .of_outcome fun s t hst => ?_
  obtain ⟨result, s', t', hm, hn, h'⟩ := h.exists_outcome hst
  refine ⟨.ok result, s', t', ?_, ?_, h'⟩
  · rw [Exec.attempt, hm]
  · rw [Exec.attempt, hn]

/-- Cleaning up is alike. -/
theorem Alike.onError {m : Exec ε σ α} {n : Exec ε τ α} {c : Exec ε σ Unit} {d : Exec ε τ Unit}
    (hm : Alike R m n) (hc : Alike R c d) : Alike R (onError m c) (Exec.onError n d) := by
  refine .of_outcome fun s t hst => ?_
  obtain ⟨result, s', t', hms, hnt, h'⟩ := hm.exists_outcome hst
  cases result with
  | ok a =>
    refine ⟨.ok a, s', t', ?_, ?_, h'⟩
    · rw [Exec.onError, hms]
    · rw [Exec.onError, hnt]
  | error e =>
    obtain ⟨result', s'', t'', hcs, hdt, h''⟩ := hc.exists_outcome h'
    cases result' with
    | ok u =>
      refine ⟨.error e, s'', t'', ?_, ?_, h''⟩
      · simp only [Exec.onError, hms, hcs]
      · simp only [Exec.onError, hnt, hdt]
    | error e' =>
      refine ⟨.error e', s'', t'', ?_, ?_, h''⟩
      · simp only [Exec.onError, hms, hcs]
      · simp only [Exec.onError, hnt, hdt]

/-- The copies that staged computations work on. -/
theorem Alike.staged {m : Exec ε σ α} {n : Exec ε τ α} (h : Alike R m n) :
    Alike R (staged m) (Exec.staged n) := by
  refine .of_outcome fun s t hst => ?_
  obtain ⟨result, s', t', hm, hn, h'⟩ := h.exists_outcome hst
  cases result with
  | ok a =>
    refine ⟨.ok a, s', t', ?_, ?_, h'⟩
    · rw [Exec.staged, hm]
    · rw [Exec.staged, hn]
  | error e =>
    refine ⟨.error e, s, t, ?_, ?_, hst⟩
    · rw [Exec.staged, hm]
    · rw [Exec.staged, hn]

/-- Objects that are related inside related states. -/
theorem Alike.zoom {σ' τ' : Type} {S : σ' → τ' → Prop} {m : Exec ε σ' α} {n : Exec ε τ' α}
    {r : Ref σ σ'} {r' : Ref τ τ'} (h : Alike S m n) (hget : ∀ s t, R s t → S (r.get s) (r'.get t))
    (hset : ∀ s t a b, R s t → S a b → R (r.set a s) (r'.set b t)) :
    Alike R (Exec.zoom r m) (Exec.zoom r' n) := by
  refine .of_outcome fun s t hst => ?_
  obtain ⟨result, a, b, hm, hn, hab⟩ := h.exists_outcome (hget s t hst)
  refine ⟨result, r.set a s, r'.set b t, ?_, ?_, hset s t a b hst hab⟩
  · rw [zoom_apply, hm]
  · rw [zoom_apply, hn]

/-- The same error, or related results. -/
inductive SameOutcome (S : α → β → Prop) : Except ε α → Except ε β → Prop
  | error (e : ε) : SameOutcome S (.error e) (.error e)
  | ok {a : α} {b : β} (h : S a b) : SameOutcome S (.ok a) (.ok b)

/-- Two parts with the same outcome have it in sequence. -/
theorem SameOutcome.bind {γ δ : Type} {S : α → β → Prop} {S' : γ → δ → Prop} {r : Except ε α}
    {r' : Except ε β} {f : α → Except ε γ} {g : β → Except ε δ} (h : SameOutcome S r r')
    (hf : ∀ a b, S a b → SameOutcome S' (f a) (g b)) : SameOutcome S' (r >>= f) (r' >>= g) := by
  cases h with
  | error e => exact .error e
  | ok hab => exact hf _ _ hab

/-- A result has the same outcome as itself. -/
theorem SameOutcome.refl (r : Except ε α) : SameOutcome Eq r r := by
  cases r with
  | error e => exact .error e
  | ok a => exact .ok rfl

/-- Equal results are the same outcome. -/
theorem SameOutcome.eq {r r' : Except ε α} (h : SameOutcome Eq r r') : r = r' := by
  cases h with
  | error e => rfl
  | ok hab => rw [hab]

end Exec

end Library
