import Mathlib.Data.List.Chain
import Mathlib.Tactic.Common

/-!
# Replaying recorded changes

Two facts about logs. A record that holds, for each place of a state, the new value where it differs
from the old one, turns the old state into the new one when its changes are applied in order. And a
log whose records each start where the one before ended replays to the state it ends in.
-/

namespace Library

/-! ## One record -/

section Changes

variable {S K V C X : Type} [DecidableEq K] (get : S → K → V) (Inv : S → Prop) (target : K → V)
  (place : X → K) {apply : S → C → S} {change : X → Option C} {items : List X}

/-- A change overwrites its place by the target value there and touches nothing else. -/
def Overwrites (apply : S → C → S) (change : X → Option C) (items : List X) : Prop :=
  ∀ s x c, x ∈ items → Inv s → change x = some c →
    Inv (apply s c)
      ∧ ∀ k, get (apply s c) k = if k = place x then target (place x) else get s k

/-- When there is a change wherever the state is not as the target, the changes applied one after
the other give the target. -/
theorem get_foldl_eq_target (h : Overwrites get Inv target place apply change items) {s : S}
    (hs : Inv s)
    (hsame : ∀ k, (∀ x ∈ items, place x = k → change x = none) → get s k = target k) :
    Inv ((items.filterMap change).foldl apply s)
      ∧ ∀ k, get ((items.filterMap change).foldl apply s) k = target k := by
  induction items generalizing s with
  | nil => exact ⟨hs, fun k => hsame k nofun⟩
  | cons item rest ih =>
    have hrest : Overwrites get Inv target place apply change rest :=
      fun s x c hx => h s x c (List.mem_cons_of_mem _ hx)
    cases hchange : change item with
    | none =>
      rw [List.filterMap_cons_none hchange]
      refine ih hrest hs fun k hk => hsame k fun x hx hplace => ?_
      rcases List.mem_cons.mp hx with rfl | hx
      · exact hchange
      · exact hk x hx hplace
    | some c =>
      rw [List.filterMap_cons_some hchange, List.foldl_cons]
      obtain ⟨hinv, hput⟩ := h s item c List.mem_cons_self hs hchange
      refine ih hrest hinv fun k hk => ?_
      rw [hput]
      by_cases hplace : k = place item
      · rw [if_pos hplace, hplace]
      · rw [if_neg hplace]
        refine hsame k fun x hx hx' => ?_
        rcases List.mem_cons.mp hx with rfl | hx
        · exact absurd hx'.symm hplace
        · exact hk x hx hx'

end Changes

/-! ## A log -/

section Log

variable {S V E : Type} {before after : E → S}

/-- The records lead from the first state to the last, each one from where the one before ended. -/
def Leads (before after : E → S) : S → List E → S → Prop
  | first, [], last => first = last
  | first, record :: rest, last => before record = first ∧ Leads before after (after record) rest last

/-- A log goes on with a record of what happened next. -/
theorem Leads.concat {first last : S} {log : List E} {record : E}
    (h : Leads before after first log last) (hbefore : before record = last) :
    Leads before after first (log ++ [record]) (after record) := by
  induction log generalizing first with
  | nil =>
    subst h
    exact ⟨hbefore, rfl⟩
  | cons head rest ih => exact ⟨h.1, ih h.2⟩

/-- Each record of a log starts where the one before it ended. -/
theorem Leads.isChain {first last : S} {log : List E} (h : Leads before after first log last) :
    log.IsChain fun record next => before next = after record := by
  induction log generalizing first with
  | nil => exact .nil
  | cons head rest ih =>
    cases rest with
    | nil => exact .singleton head
    | cons next rest => exact List.isChain_cons_cons.mpr ⟨h.2.1, ih h.2⟩

/-- Replaying a log whose records each replay exactly. -/
theorem Leads.foldl {first last : S} {log : List E} (h : Leads before after first log last)
    (view : S → V) (apply : V → E → V)
    (hexact : ∀ record ∈ log, apply (view (before record)) record = view (after record)) :
    log.foldl apply (view first) = view last := by
  induction log generalizing first with
  | nil => exact congrArg view h
  | cons head rest ih =>
    rw [List.foldl_cons, ← h.1, hexact head List.mem_cons_self]
    exact ih h.2 fun record hrecord => hexact record (List.mem_cons_of_mem _ hrecord)

end Log

end Library
