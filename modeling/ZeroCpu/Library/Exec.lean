import Mathlib.Tactic.Common

/-!
# Stateful computations that may throw

`Exec ε σ α` is a computation over a mutable state `σ` that either returns an `α` or throws an `ε`.
The state reached is kept in both cases, as it is when an exception leaves a method of a mutable
object half way.

Three program logics come with it:

* `Triple P m Q E`: from every state satisfying `P`, a normal return of `m` establishes `Q` and a
  throw establishes `E`;
* `Related R m n Q E`: from `R`-related states, `m` and `n` either both return, establishing `Q`,
  or both throw, establishing `E`. It is the two-run form used for equivalence and for
  noninterference arguments.

* `Keeps P m`: `m` keeps `P` in both outcomes.

They come with one rule for each way of building a computation, so a proof about a composite
computation cites the rule of its outermost constructor and the specification of its parts.
-/

namespace Library

/-- A computation over a state `σ` that returns an `α` or throws an `ε`; a throw keeps the state
reached so far. -/
def Exec (ε σ α : Type) : Type := σ → Except ε α × σ

namespace Exec

variable {ε ε' σ τ α β γ : Type}

instance : Monad (Exec ε σ) where
  pure a := fun s => (.ok a, s)
  bind m f := fun s =>
    match m s with
    | (.ok a, s') => f a s'
    | (.error e, s') => (.error e, s')

/-- Throw `e`, leaving the state as it is. -/
def throw (e : ε) : Exec ε σ α := fun s => (.error e, s)

/-- The current state. -/
def get : Exec ε σ σ := fun s => (.ok s, s)

/-- A function of the current state. -/
def gets (f : σ → α) : Exec ε σ α := fun s => (.ok (f s), s)

/-- Replace the state by a function of it. -/
def modify (f : σ → σ) : Exec ε σ Unit := fun s => (.ok (), f s)

/-- A state-free computation that may throw. -/
def lift (r : Except ε α) : Exec ε σ α := fun s => (r, s)

/-- Run `cleanup` when `m` throws, and throw on what `m` threw (or what `cleanup` did). -/
def onError (m : Exec ε σ α) (cleanup : Exec ε σ Unit) : Exec ε σ α := fun s =>
  match m s with
  | (.ok a, s') => (.ok a, s')
  | (.error e, s') =>
      match cleanup s' with
      | (.ok (), s'') => (.error e, s'')
      | (.error e', s'') => (.error e', s'')

/-- Run `m` and return what it returned or threw. -/
def attempt (m : Exec ε σ α) : Exec ε' σ (Except ε α) := fun s => (.ok (m s).1, (m s).2)

/-- Run `m` on a copy of the state and hand the copy over when `m` returns: a throw leaves the
state as it was. -/
def staged (m : Exec ε σ α) : Exec ε σ α := fun s =>
  match m s with
  | (.ok a, s') => (.ok a, s')
  | (.error e, _) => (.error e, s)

/-- Assign what `f` computes from the state; a failure leaves the state as it was. -/
def assign (f : σ → Except ε (α × σ)) : Exec ε σ α := fun s =>
  match f s with
  | .ok (a, s') => (.ok a, s')
  | .error e => (.error e, s)

/-- Throw `e` unless `b` holds. -/
def require (b : Bool) (e : ε) : Exec ε σ Unit := if b then pure () else throw e

@[simp] theorem pure_apply (a : α) (s : σ) : (pure a : Exec ε σ α) s = (.ok a, s) := rfl

@[simp] theorem throw_apply (e : ε) (s : σ) : (throw e : Exec ε σ α) s = (.error e, s) := rfl

@[simp] theorem get_apply (s : σ) : (get : Exec ε σ σ) s = (.ok s, s) := rfl

@[simp] theorem gets_apply (f : σ → α) (s : σ) : (gets f : Exec ε σ α) s = (.ok (f s), s) := rfl

@[simp] theorem modify_apply (f : σ → σ) (s : σ) :
    (modify f : Exec ε σ Unit) s = (.ok (), f s) := rfl

/-- `lift` leaves the state alone, whether it returns or throws. -/
@[simp] theorem lift_apply (r : Except ε α) (s : σ) : (lift r : Exec ε σ α) s = (r, s) := rfl

/-- A bind runs its second part from where the first has returned. -/
theorem bind_apply (m : Exec ε σ α) (f : α → Exec ε σ β) (s : σ) :
    (m >>= f) s = match m s with
      | (.ok a, s') => f a s'
      | (.error e, s') => (.error e, s') := rfl

/-- Mapping the identity changes nothing. -/
theorem id_map_eq (m : Exec ε σ α) : id <$> m = m := by
  funext s
  show (match m s with
    | (.ok a, s') => (Except.ok a, s')
    | (.error e, s') => (Except.error e, s')) = m s
  rcases m s with ⟨_ | _, _⟩ <;> rfl

/-- Binds associate. -/
theorem bind_bind_eq (m : Exec ε σ α) (f : α → Exec ε σ β) (g : β → Exec ε σ γ) :
    m >>= f >>= g = m >>= fun a => f a >>= g := by
  funext s
  simp only [bind_apply]
  rcases m s with ⟨_ | _, _⟩ <;> rfl

instance : LawfulMonad (Exec ε σ) :=
  LawfulMonad.mk' _ id_map_eq (fun _ _ => rfl) bind_bind_eq

/-- A bind whose first part returns continues from the state it reached. -/
theorem bind_of_ok {m : Exec ε σ α} {f : α → Exec ε σ β} {s s' : σ} {a : α}
    (h : m s = (.ok a, s')) : (m >>= f) s = f a s' := by
  rw [bind_apply, h]

/-- A bind whose first part throws throws the same from the state it reached. -/
theorem bind_of_error {m : Exec ε σ α} {f : α → Exec ε σ β} {s s' : σ} {e : ε}
    (h : m s = (.error e, s')) : (m >>= f) s = (.error e, s') := by
  rw [bind_apply, h]

/-- A returning bind is a return of both parts. -/
theorem bind_eq_ok {m : Exec ε σ α} {f : α → Exec ε σ β} {s t : σ} {b : β} :
    (m >>= f) s = (.ok b, t) ↔ ∃ a s', m s = (.ok a, s') ∧ f a s' = (.ok b, t) := by
  rw [bind_apply]
  rcases m s with ⟨_ | a, s'⟩
  · simp
  · constructor
    · intro h
      exact ⟨a, s', rfl, h⟩
    · rintro ⟨a', s'', heq, h⟩
      cases heq
      exact h

theorem pure_eq_ok {a b : α} {s t : σ} :
    (pure a : Exec ε σ α) s = (.ok b, t) ↔ a = b ∧ s = t := by
  simp

theorem lift_eq_ok {r : Except ε α} {s t : σ} {a : α} :
    (lift r : Exec ε σ α) s = (.ok a, t) ↔ r = .ok a ∧ s = t := by
  simp

theorem modify_eq_ok {f : σ → σ} {s t : σ} {u : Unit} :
    (modify f : Exec ε σ Unit) s = (.ok u, t) ↔ f s = t := by
  simp

/-! A returning bind whose first part is a primitive: no intermediate state has to be named. -/

theorem get_bind_eq_ok {f : σ → Exec ε σ β} {s t : σ} {b : β} :
    (get >>= f) s = (.ok b, t) ↔ f s s = (.ok b, t) := Iff.rfl

theorem modify_bind_eq_ok {g : σ → σ} {f : Unit → Exec ε σ β} {s t : σ} {b : β} :
    (modify g >>= f) s = (.ok b, t) ↔ f () (g s) = (.ok b, t) := Iff.rfl

/-- A computation that first asks for the value of an `Except`. -/
theorem lift_bind_eq_ok {r : Except ε α} {f : α → Exec ε σ β} {s t : σ} {b : β} :
    (lift r >>= f) s = (.ok b, t) ↔ ∃ a, r = .ok a ∧ f a s = (.ok b, t) := by
  rw [bind_apply, lift_apply]
  rcases r with e | a <;> simp

/-- A staged computation returns what the computation does. -/
theorem staged_eq_ok {m : Exec ε σ α} {s t : σ} {a : α} :
    staged m s = (.ok a, t) ↔ m s = (.ok a, t) := by
  rw [staged]
  rcases m s with ⟨e | a', s'⟩ <;> simp

/-- A staged computation that throws leaves the state as it was. -/
theorem staged_error {m : Exec ε σ α} {s t : σ} {e : ε} (h : staged m s = (.error e, t)) : t = s := by
  rw [staged] at h
  generalize m s = out at h
  rcases out with ⟨e' | a, s'⟩
  · exact (Prod.ext_iff.mp h).2.symm
  · cases (Prod.ext_iff.mp h).1

/-- A passed requirement returns without touching the state. -/
theorem require_eq_ok {b : Bool} {e : ε} {s t : σ} {u : Unit} :
    (require b e : Exec ε σ Unit) s = (.ok u, t) ↔ b = true ∧ t = s := by
  cases b <;> simp [require, eq_comm]

theorem require_bind_eq_ok {c : Bool} {e : ε} {f : Unit → Exec ε σ β} {s t : σ} {b : β} :
    (require c e >>= f) s = (.ok b, t) ↔ c = true ∧ f () s = (.ok b, t) := by
  cases c <;> simp [require, bind_apply]

/-- A composite computation never throws where its parts do not. -/
theorem require_apply (b : Bool) (e : ε) (s : σ) :
    (require b e : Exec ε σ Unit) s = (if b then .ok () else .error e, s) := by
  cases b <;> rfl

/-! ## Pre- and postconditions -/

/-- The postcondition `Q` of a return and `E` of a throw, as one property of an outcome. -/
def Post (Q : α → σ → Prop) (E : ε → σ → Prop) : Except ε α × σ → Prop
  | (.ok a, s) => Q a s
  | (.error e, s) => E e s

@[simp] theorem post_ok {Q : α → σ → Prop} {E : ε → σ → Prop} {a : α} {s : σ} :
    Post Q E (.ok a, s) ↔ Q a s := Iff.rfl

@[simp] theorem post_error {Q : α → σ → Prop} {E : ε → σ → Prop} {e : ε} {s : σ} :
    Post Q E (.error e, s) ↔ E e s := Iff.rfl

/-- From every state satisfying `P`, a normal return of `m` establishes `Q` and a throw
establishes `E`. -/
def Triple (P : σ → Prop) (m : Exec ε σ α) (Q : α → σ → Prop) (E : ε → σ → Prop) : Prop :=
  ∀ s, P s → Post Q E (m s)

section Triple

variable {P P' : σ → Prop} {Q Q' : α → σ → Prop} {E E' : ε → σ → Prop}

/-- A triple, read for a run that returns. -/
theorem Triple.ok {m : Exec ε σ α} (h : Triple P m Q E) {s s' : σ} {a : α} (hs : P s)
    (hm : m s = (.ok a, s')) : Q a s' := by
  have := h s hs
  rwa [hm] at this

/-- A triple, read for a run that throws. -/
theorem Triple.error {m : Exec ε σ α} (h : Triple P m Q E) {s s' : σ} {e : ε} (hs : P s)
    (hm : m s = (.error e, s')) : E e s' := by
  have := h s hs
  rwa [hm] at this

/-- The rule of consequence. -/
theorem Triple.conseq {m : Exec ε σ α} (h : Triple P m Q E) (hP : ∀ s, P' s → P s)
    (hQ : ∀ a s, Q a s → Q' a s) (hE : ∀ e s, E e s → E' e s) : Triple P' m Q' E' := by
  intro s hs
  have := h s (hP s hs)
  generalize m s = out at this ⊢
  rcases out with ⟨e | a, s'⟩
  · exact hE _ _ this
  · exact hQ _ _ this

/-- The rule of sequence: what holds between the two parts holds before the second. -/
theorem Triple.bind {R : β → σ → Prop} {m : Exec ε σ α} {f : α → Exec ε σ β}
    (hm : Triple P m Q E) (hf : ∀ a, Triple (Q a) (f a) R E) : Triple P (m >>= f) R E := by
  intro s hs
  have h1 := hm s hs
  rw [bind_apply]
  generalize m s = out at h1 ⊢
  rcases out with ⟨e | a, s'⟩
  · exact h1
  · exact hf a s' h1

theorem Triple.pure {a : α} (h : ∀ s, P s → Q a s) :
    Triple P (pure a : Exec ε σ α) Q E := fun s hs => h s hs

theorem Triple.throw {e : ε} (h : ∀ s, P s → E e s) :
    Triple P (throw e : Exec ε σ α) Q E := fun s hs => h s hs

theorem Triple.modify {f : σ → σ} {Q : Unit → σ → Prop} (h : ∀ s, P s → Q () (f s)) :
    Triple P (modify f : Exec ε σ Unit) Q E := fun s hs => h s hs

/-- The rule of `lift`, with a premise for each outcome. -/
theorem Triple.lift {r : Except ε α} (hok : ∀ s a, P s → r = .ok a → Q a s)
    (herr : ∀ s e, P s → r = .error e → E e s) : Triple P (lift r : Exec ε σ α) Q E := by
  intro s hs
  rcases r with e | a
  · exact herr s e hs rfl
  · exact hok s a hs rfl

/-- The rule of cleaning up: it runs from where the throw has happened. -/
theorem Triple.onError {m : Exec ε σ α} {cleanup : Exec ε σ Unit} {M : ε → σ → Prop}
    (hm : Triple P m Q M) (hc : ∀ e, Triple (M e) cleanup (fun _ => E e) E) :
    Triple P (onError m cleanup) Q E := by
  intro s hs
  have h1 := hm s hs
  unfold Exec.onError
  generalize m s = out at h1 ⊢
  rcases out with ⟨e | a, s'⟩
  · have h2 := hc e s' h1
    simp only
    generalize cleanup s' = out' at h2 ⊢
    rcases out' with ⟨e' | u, s''⟩ <;> exact h2
  · exact h1

end Triple

/-! ## Invariants -/

/-- `m` keeps `P`, whether it returns or throws. -/
def Keeps (P : σ → Prop) (m : Exec ε σ α) : Prop := ∀ s, P s → P (m s).2

section Keeps

variable {P : σ → Prop}

/-- An invariant is a triple with itself on both outcomes. -/
theorem Keeps.triple {m : Exec ε σ α} (h : Keeps P m) : Triple P m (fun _ => P) (fun _ => P) := by
  intro s hs
  have := h s hs
  generalize m s = out at this ⊢
  rcases out with ⟨e | a, s'⟩ <;> exact this

/-- A triple with one condition throughout is an invariant. -/
theorem Triple.keeps {m : Exec ε σ α} (h : Triple P m (fun _ => P) (fun _ => P)) : Keeps P m := by
  intro s hs
  have := h s hs
  generalize m s = out at this ⊢
  rcases out with ⟨e | a, s'⟩ <;> exact this

theorem Keeps.pure (a : α) : Keeps P (pure a : Exec ε σ α) := fun _ h => h

theorem Keeps.throw (e : ε) : Keeps P (throw e : Exec ε σ α) := fun _ h => h

theorem Keeps.get : Keeps P (get : Exec ε σ σ) := fun _ h => h

theorem Keeps.gets (f : σ → α) : Keeps P (gets f : Exec ε σ α) := fun _ h => h

theorem Keeps.lift (r : Except ε α) : Keeps P (lift r : Exec ε σ α) := fun _ h => h

theorem Keeps.require (b : Bool) (e : ε) : Keeps P (require b e : Exec ε σ Unit) := by
  cases b <;> exact fun _ h => h

theorem Keeps.modify {f : σ → σ} (h : ∀ s, P s → P (f s)) :
    Keeps P (modify f : Exec ε σ Unit) := h

theorem Keeps.bind {m : Exec ε σ α} {f : α → Exec ε σ β} (hm : Keeps P m)
    (hf : ∀ a, Keeps P (f a)) : Keeps P (m >>= f) :=
  (Triple.bind hm.triple fun a => (hf a).triple).keeps

theorem Keeps.attempt {m : Exec ε σ α} (hm : Keeps P m) :
    Keeps P (attempt m : Exec ε' σ (Except ε α)) := fun s hs => hm s hs

theorem Keeps.onError {m : Exec ε σ α} {cleanup : Exec ε σ Unit} (hm : Keeps P m)
    (hc : Keeps P cleanup) : Keeps P (onError m cleanup) :=
  (hm.triple.onError fun _ => hc.triple).keeps

end Keeps

/-! ## Results -/

/-- Whatever `m` returns has the property `Q`. -/
def Yields (Q : α → Prop) (m : Exec ε σ α) : Prop := ∀ s a s', m s = (.ok a, s') → Q a

section Yields

variable {Q : α → Prop}

/-- `pure` yields its value. -/
theorem Yields.pure {a : α} (h : Q a) : Yields Q (pure a : Exec ε σ α) := by
  intro s b s' hpure
  obtain ⟨rfl, -⟩ := pure_eq_ok.mp hpure
  exact h

/-- What is computed first may have a property of its own. -/
theorem Yields.bind {R : α → Prop} {Q : β → Prop} {m : Exec ε σ α} {f : α → Exec ε σ β}
    (hm : Yields R m) (hf : ∀ a, R a → Yields Q (f a)) : Yields Q (m >>= f) := by
  intro s b s' h
  obtain ⟨a, t, hrun, hrest⟩ := bind_eq_ok.mp h
  exact hf a (hm s a t hrun) t b s' hrest

theorem Yields.after {Q : β → Prop} {m : Exec ε σ α} {f : α → Exec ε σ β}
    (hf : ∀ a, Yields Q (f a)) : Yields Q (m >>= f) :=
  Yields.bind (R := fun _ => True) (fun _ _ _ _ => trivial) fun a _ => hf a

/-- Catching a throw yields the value when there is one. -/
theorem Yields.attempt {m : Exec ε σ α} (hm : Yields Q m) :
    Yields (fun r => ∀ a, r = .ok a → Q a) (attempt m : Exec ε' σ (Except ε α)) := by
  intro s r s' h a hr
  obtain ⟨hresult, -⟩ := Prod.ext_iff.mp h
  have hrun : (m s).1 = .ok a := (Except.ok.inj hresult).trans hr
  exact hm s a (m s).2 (Prod.ext hrun rfl)

end Yields

/-! ## Two runs side by side -/

/-- The postcondition `Q` of two returns and `E` of two throws; one of each is excluded. -/
def RelPost (Q : α → β → σ → τ → Prop) (E : ε → ε' → σ → τ → Prop) :
    Except ε α × σ → Except ε' β × τ → Prop
  | (.ok a, s), (.ok b, t) => Q a b s t
  | (.error e, s), (.error e', t) => E e e' s t
  | _, _ => False

/-- From `R`-related states `m` and `n` either both return, establishing `Q`, or both throw,
establishing `E`. -/
def Related (R : σ → τ → Prop) (m : Exec ε σ α) (n : Exec ε' τ β)
    (Q : α → β → σ → τ → Prop) (E : ε → ε' → σ → τ → Prop) : Prop :=
  ∀ s t, R s t → RelPost Q E (m s) (n t)

section Related

variable {R R' : σ → τ → Prop} {Q Q' : α → β → σ → τ → Prop} {E E' : ε → ε' → σ → τ → Prop}

/-- The rule of consequence for two computations. -/
theorem Related.conseq {m : Exec ε σ α} {n : Exec ε' τ β} (h : Related R m n Q E)
    (hR : ∀ s t, R' s t → R s t) (hQ : ∀ a b s t, Q a b s t → Q' a b s t)
    (hE : ∀ e e' s t, E e e' s t → E' e e' s t) : Related R' m n Q' E' := by
  intro s t hst
  have := h s t (hR s t hst)
  generalize m s = out at this ⊢
  generalize n t = out' at this ⊢
  rcases out with ⟨e | a, s'⟩ <;> rcases out' with ⟨e' | b, t'⟩
  · exact hE _ _ _ _ this
  · exact this
  · exact this
  · exact hQ _ _ _ _ this

/-- The rule of sequence for two computations in step. -/
theorem Related.bind {α' β' : Type} {S : α' → β' → σ → τ → Prop}
    {m : Exec ε σ α} {n : Exec ε' τ β} {f : α → Exec ε σ α'} {g : β → Exec ε' τ β'}
    (hm : Related R m n Q E) (hf : ∀ a b, Related (Q a b) (f a) (g b) S E) :
    Related R (m >>= f) (n >>= g) S E := by
  intro s t hst
  have h1 := hm s t hst
  rw [bind_apply, bind_apply]
  generalize m s = out at h1 ⊢
  generalize n t = out' at h1 ⊢
  rcases out with ⟨e | a, s'⟩ <;> rcases out' with ⟨e' | b, t'⟩
  · exact h1
  · exact h1.elim
  · exact h1.elim
  · exact hf a b s' t' h1

theorem Related.pure {a : α} {b : β} (h : ∀ s t, R s t → Q a b s t) :
    Related R (pure a : Exec ε σ α) (pure b : Exec ε' τ β) Q E := fun s t hst => h s t hst

theorem Related.throw {e : ε} {e' : ε'} (h : ∀ s t, R s t → E e e' s t) :
    Related R (throw e : Exec ε σ α) (throw e' : Exec ε' τ β) Q E := fun s t hst => h s t hst

/-- The rule of `modify` on both sides. -/
theorem Related.modify {f : σ → σ} {g : τ → τ} {Q : Unit → Unit → σ → τ → Prop}
    (h : ∀ s t, R s t → Q () () (f s) (g t)) :
    Related R (modify f : Exec ε σ Unit) (modify g : Exec ε' τ Unit) Q E :=
  fun s t hst => h s t hst

end Related

/-! ## Objects inside a larger state -/

end Exec

/-- A pointer to an object of type `τ` that lives in a state `σ`: how to read and replace the
object, with the three laws that make it a place of its own. -/
structure Ref (σ τ : Type) where
  get : σ → τ
  set : τ → σ → σ
  get_set : ∀ t s, get (set t s) = t
  set_get : ∀ s, set (get s) s = s
  set_set : ∀ t t' s, set t' (set t s) = set t' s

attribute [simp] Ref.get_set Ref.set_get Ref.set_set

/-- A pointer to an object inside the object behind a pointer. -/
def Ref.inside {σ τ υ : Type} (r : Ref σ τ) (r' : Ref τ υ) : Ref σ υ where
  get s := r'.get (r.get s)
  set u s := r.set (r'.set u (r.get s)) s
  get_set u s := by simp
  set_get s := by simp
  set_set u u' s := by simp

/-- Run a computation on the object behind a pointer. -/
def Exec.zoom {ε σ τ α : Type} (r : Ref σ τ) (m : Exec ε τ α) : Exec ε σ α := fun s =>
  let (result, t) := m (r.get s)
  (result, r.set t s)

theorem Exec.zoom_apply {ε σ τ α : Type} (r : Ref σ τ) (m : Exec ε τ α) (s : σ) :
    Exec.zoom r m s = ((m (r.get s)).1, r.set (m (r.get s)).2 s) := rfl

/-- What a computation on a part returns. -/
theorem Exec.zoom_eq_ok {ε σ τ α : Type} {r : Ref σ τ} {m : Exec ε τ α} {s s' : σ} {a : α} :
    Exec.zoom r m s = (.ok a, s') ↔ ∃ t, m (r.get s) = (.ok a, t) ∧ s' = r.set t s := by
  rw [Exec.zoom_apply]
  rcases m (r.get s) with ⟨e | b, t⟩
  · simp
  · simp [eq_comm]

/-- A computation on a part yields what it yields there. -/
theorem Exec.Yields.zoom {ε σ τ α : Type} {Q : α → Prop} {r : Ref σ τ} {m : Exec ε τ α}
    (hm : Exec.Yields Q m) : Exec.Yields Q (Exec.zoom r m) := by
  intro s a s' h
  obtain ⟨t, hrun, -⟩ := Exec.zoom_eq_ok.mp h
  exact hm (r.get s) a t hrun

end Library
