import Mathlib.Algebra.BigOperators.Group.List.Basic
import Mathlib.Algebra.GroupWithZero.Nat
import Mathlib.Data.List.Sort
import Mathlib.Order.Defs.LinearOrder
import Mathlib.Tactic.Common

/-!
# Ordered maps

A `SortedMap` is a map kept as the list of its entries in strictly ascending order of their keys,
the order in which an ordered map is iterated.
-/

namespace Library

variable {κ ν : Type} [LinearOrder κ]

/-- An ordered map: its entries, keys strictly ascending. -/
structure SortedMap (κ ν : Type) [LinearOrder κ] where
  entries : List (κ × ν)
  sorted : entries.Pairwise fun a b => a.1 < b.1

namespace SortedMap

/-- The map without entries. -/
def empty : SortedMap κ ν := ⟨[], List.Pairwise.nil⟩

/-- The keys, in order. -/
def keys (m : SortedMap κ ν) : List κ := m.entries.map Prod.fst

/-- The value stored under a key. -/
def find? (m : SortedMap κ ν) (key : κ) : Option ν :=
  (m.entries.find? fun entry => entry.1 == key).map Prod.snd

/-- Insert an entry in front of the first larger key, unless its key is already there. -/
def emplaceEntry (key : κ) (value : ν) : List (κ × ν) → List (κ × ν)
  | [] => [(key, value)]
  | entry :: rest =>
      if key < entry.1 then (key, value) :: entry :: rest
      else if key = entry.1 then entry :: rest
      else entry :: emplaceEntry key value rest

/-- The entries after an insertion. -/
theorem mem_emplaceEntry {key : κ} {value : ν} {entries : List (κ × ν)} {entry : κ × ν}
    (h : entry ∈ emplaceEntry key value entries) : entry = (key, value) ∨ entry ∈ entries := by
  induction entries with
  | nil => simpa [emplaceEntry] using h
  | cons head rest ih =>
    simp only [emplaceEntry] at h
    split_ifs at h
    · simpa using h
    · exact .inr h
    · rcases List.mem_cons.mp h with h | h
      · exact .inr (h ▸ List.mem_cons_self)
      · exact (ih h).imp id (List.mem_cons_of_mem _)

/-- An insertion keeps the entries sorted. -/
theorem sorted_emplaceEntry {key : κ} {value : ν} {entries : List (κ × ν)}
    (h : entries.Pairwise fun a b => a.1 < b.1) :
    (emplaceEntry key value entries).Pairwise fun a b => a.1 < b.1 := by
  induction entries with
  | nil => exact List.pairwise_singleton _ _
  | cons head rest ih =>
    obtain ⟨hhead, hrest⟩ := List.pairwise_cons.mp h
    simp only [emplaceEntry]
    split_ifs with hlt heq
    · refine List.pairwise_cons.mpr ⟨fun entry hmem => ?_, h⟩
      rcases List.mem_cons.mp hmem with rfl | hmem
      · exact hlt
      · exact lt_trans hlt (hhead entry hmem)
    · exact h
    · refine List.pairwise_cons.mpr ⟨fun entry hmem => ?_, ih hrest⟩
      rcases mem_emplaceEntry hmem with rfl | hmem
      · exact lt_of_le_of_ne (not_lt.mp hlt) (Ne.symm heq)
      · exact hhead entry hmem

/-- Insert an entry, unless its key is already there. -/
def emplace (m : SortedMap κ ν) (key : κ) (value : ν) : SortedMap κ ν :=
  ⟨emplaceEntry key value m.entries, sorted_emplaceEntry m.sorted⟩

/-- Replace the value under a key by a function of it. -/
def modify (m : SortedMap κ ν) (key : κ) (f : ν → ν) : SortedMap κ ν where
  entries := m.entries.map fun entry => if entry.1 = key then (entry.1, f entry.2) else entry
  sorted := by
    refine List.pairwise_map.mpr (m.sorted.imp fun {a b} h => ?_)
    split_ifs <;> exact h

/-! ## Lookup after an update -/

/-- Modifying a value leaves the keys alone. -/
theorem keys_modify (m : SortedMap κ ν) (key : κ) (f : ν → ν) : (m.modify key f).keys = m.keys := by
  simp only [keys, modify, List.map_map]
  refine List.map_congr_left fun entry _ => ?_
  simp only [Function.comp_apply]
  split_ifs <;> rfl

/-- Modifying a value changes that value only. -/
theorem find?_modify (m : SortedMap κ ν) (key other : κ) (f : ν → ν) :
    (m.modify key f).find? other = if other = key then (m.find? other).map f else m.find? other := by
  obtain ⟨entries, hsorted⟩ := m
  simp only [find?, modify]
  clear hsorted
  induction entries with
  | nil => simp
  | cons entry rest ih =>
    simp only [List.map_cons, List.find?_cons]
    by_cases hk : entry.1 = key
    · rw [if_pos hk]
      by_cases ho : entry.1 = other
      · simp [ho, ho ▸ hk]
      · simp only [beq_eq_false_iff_ne.mpr ho]
        exact ih
    · rw [if_neg hk]
      by_cases ho : entry.1 = other
      · subst ho
        simp [hk]
      · simp only [beq_eq_false_iff_ne.mpr ho]
        exact ih

theorem mem_keys_iff (m : SortedMap κ ν) (key : κ) : key ∈ m.keys ↔ (m.find? key).isSome := by
  simp only [keys, find?, Option.isSome_map, List.find?_isSome, List.mem_map, beq_iff_eq]

/-- An entry of the list is what lookup finds under its key. -/
theorem find?_of_mem (m : SortedMap κ ν) {key : κ} {value : ν} (h : (key, value) ∈ m.entries) :
    m.find? key = some value := by
  obtain ⟨entries, hsorted⟩ := m
  simp only [find?]
  simp only at h
  induction entries with
  | nil => exact absurd h List.not_mem_nil
  | cons entry rest ih =>
    obtain ⟨hhead, hrest⟩ := List.pairwise_cons.mp hsorted
    rcases List.mem_cons.mp h with rfl | hmem
    · simp
    · have hne : entry.1 ≠ key := ne_of_lt (hhead _ hmem)
      simp only [List.find?_cons, beq_eq_false_iff_ne.mpr hne]
      exact ih hrest hmem

/-- What is found is an entry. -/
theorem mem_of_find? (m : SortedMap κ ν) {key : κ} {value : ν} (h : m.find? key = some value) :
    (key, value) ∈ m.entries := by
  simp only [find?, Option.map_eq_some_iff] at h
  obtain ⟨entry, hfind, rfl⟩ := h
  have hkey : entry.1 = key := by simpa using List.find?_some hfind
  exact hkey ▸ List.mem_of_find?_eq_some hfind

/-- Only the function's value at what is stored matters. -/
theorem modify_congr (m : SortedMap κ ν) {key : κ} {f g : ν → ν}
    (h : ∀ value, m.find? key = some value → f value = g value) : m.modify key f = m.modify key g := by
  have hentries : (m.modify key f).entries = (m.modify key g).entries := by
    refine List.map_congr_left fun entry hmem => ?_
    split_ifs with hkey
    · rw [h entry.2 (hkey ▸ m.find?_of_mem hmem)]
    · rfl
  simp only [modify] at hentries ⊢
  simp only [hentries]

/-- Two modifications of a value are one. -/
theorem modify_modify (m : SortedMap κ ν) (key : κ) (f g : ν → ν) :
    (m.modify key f).modify key g = m.modify key (g ∘ f) := by
  have hentries : ((m.modify key f).modify key g).entries = (m.modify key (g ∘ f)).entries := by
    simp only [modify, List.map_map]
    refine List.map_congr_left fun entry _ => ?_
    simp only [Function.comp_apply]
    split_ifs <;> rfl
  simp only [modify] at hentries ⊢
  simp only [hentries]

/-- Putting back what is stored changes nothing. -/
theorem modify_same (m : SortedMap κ ν) {key : κ} {value : ν} (h : m.find? key = some value) :
    m.modify key (fun _ => value) = m := by
  have hid : m.modify key id = m := by
    have hentries : (m.modify key id).entries = m.entries := by
      refine (List.map_congr_left fun entry _ => ?_).trans (List.map_id _)
      split_ifs <;> rfl
    obtain ⟨entries, hsorted⟩ := m
    simp only [modify] at hentries ⊢
    simp only [hentries]
  rw [m.modify_congr (g := id), hid]
  intro other hother
  rw [h] at hother
  exact Option.some.inj hother

/-- Inserting under a key that is there changes nothing. -/
theorem emplace_of_mem (m : SortedMap κ ν) {key : κ} (value : ν) (h : (m.find? key).isSome) :
    m.emplace key value = m := by
  have hentries : ∀ entries : List (κ × ν), (entries.Pairwise fun a b => a.1 < b.1) →
      key ∈ entries.map Prod.fst → emplaceEntry key value entries = entries := by
    intro entries hsorted hmem
    induction entries with
    | nil => exact absurd hmem List.not_mem_nil
    | cons entry rest ih =>
      obtain ⟨hhead, hrest⟩ := List.pairwise_cons.mp hsorted
      rw [List.map_cons, List.mem_cons] at hmem
      rw [emplaceEntry]
      rcases hmem with rfl | hmem
      · rw [if_neg (lt_irrefl _), if_pos rfl]
      · obtain ⟨other, hother, rfl⟩ := List.mem_map.mp hmem
        have hlt : entry.1 < other.1 := hhead other hother
        rw [if_neg (not_lt.mpr (le_of_lt hlt)), if_neg (ne_of_gt hlt), ih hrest hmem]
  obtain ⟨entries, hsorted⟩ := m
  have := hentries entries hsorted (((mem_keys_iff _ _).mpr h : key ∈ keys ⟨entries, hsorted⟩))
  simp only [emplace, this]

/-- A new entry is found, and the others as before. -/
theorem find?_emplace (m : SortedMap κ ν) {key : κ} (value : ν) (h : m.find? key = none)
    (other : κ) :
    (m.emplace key value).find? other = if other = key then some value else m.find? other := by
  -- The new entry is put somewhere among the others.
  have hmem : ∀ entries : List (κ × ν), key ∉ entries.map Prod.fst →
      ∀ entry, entry ∈ emplaceEntry key value entries ↔ entry = (key, value) ∨ entry ∈ entries := by
    intro entries hkey entry
    induction entries with
    | nil => simp [emplaceEntry]
    | cons head rest ih =>
      simp only [List.map_cons, List.mem_cons, not_or] at hkey
      simp only [emplaceEntry]
      split_ifs with hlt
      · simp
      · exact absurd ‹key = head.1› hkey.1
      · rw [List.mem_cons, List.mem_cons, ih hkey.2]
        tauto
  have hkey : key ∉ m.entries.map Prod.fst := by
    have := (mem_keys_iff m key).not
    rw [h] at this
    exact this.mpr (by simp)
  by_cases ho : other = key
  · subst ho
    rw [if_pos rfl]
    exact find?_of_mem _ ((hmem m.entries hkey _).mpr (.inl rfl))
  · rw [if_neg ho]
    cases hfind : m.find? other with
    | some v =>
      exact find?_of_mem _ ((hmem m.entries hkey _).mpr (.inr (m.mem_of_find? hfind)))
    | none =>
      rw [Option.eq_none_iff_forall_ne_some]
      intro v hv
      rcases (hmem m.entries hkey _).mp (mem_of_find? _ hv) with heq | hin
      · exact ho (Prod.ext_iff.mp heq).1
      · rw [m.find?_of_mem hin] at hfind
        cases hfind

theorem keys_sorted (m : SortedMap κ ν) : m.keys.Pairwise (· < ·) :=
  List.pairwise_map.mpr m.sorted

/-- Maps that hold values under the same keys list them in the same order. -/
theorem keys_congr {μ : Type} {m : SortedMap κ ν} {m' : SortedMap κ μ}
    (h : ∀ key, (m.find? key).isSome = (m'.find? key).isSome) : m.keys = m'.keys := by
  refine List.Pairwise.eq_of_mem_iff m.keys_sorted m'.keys_sorted fun key => ?_
  rw [mem_keys_iff, mem_keys_iff, h]

/-- A key above all others is inserted at the end. -/
theorem keys_emplace_last (m : SortedMap κ ν) {key : κ} (value : ν)
    (h : ∀ other ∈ m.keys, other < key) : (m.emplace key value).keys = m.keys ++ [key] := by
  have hentries : ∀ entries : List (κ × ν), (∀ entry ∈ entries, entry.1 < key) →
      emplaceEntry key value entries = entries ++ [(key, value)] := by
    intro entries hlt
    induction entries with
    | nil => rfl
    | cons entry rest ih =>
      have hentry := hlt entry List.mem_cons_self
      rw [emplaceEntry, if_neg (lt_asymm hentry), if_neg (ne_of_gt hentry),
        ih fun other hother => hlt other (List.mem_cons_of_mem _ hother)]
      rfl
  have hkeys : ∀ entry ∈ m.entries, entry.1 < key :=
    fun entry hentry => h entry.1 (List.mem_map_of_mem hentry)
  calc (m.emplace key value).keys = (m.entries ++ [(key, value)]).map Prod.fst :=
        congrArg (List.map Prod.fst) (hentries m.entries hkeys)
    _ = m.keys ++ [key] := List.map_append

end SortedMap

/-! ## Two lists of entries under common keys -/

section Common

variable {α β : Type}

/-- The sum of `f` over the pairs of entries that two lists hold under one key. -/
def commonSum (f : α → β → ℕ) (xs : List (κ × α)) (ys : List (κ × β)) : ℕ :=
  (xs.map fun x => (ys.map fun y => if x.1 = y.1 then f x.2 y.2 else 0).sum).sum

/-- The sum over the common keys does not depend on the order of the lists. -/
theorem commonSum_comm (f : α → β → ℕ) (xs : List (κ × α)) (ys : List (κ × β)) :
    commonSum f xs ys = commonSum (fun b a => f a b) ys xs := by
  unfold commonSum
  induction xs with
  | nil => simp
  | cons x xs ih =>
    simp only [List.map_cons, List.sum_cons, List.sum_map_add, ih]
    congr 2
    refine List.map_congr_left fun y _ => ?_
    simp only [eq_comm]

/-- The sum over the common keys depends on their values only. -/
theorem commonSum_congr {f g : α → β → ℕ} {xs : List (κ × α)} {ys : List (κ × β)}
    (h : ∀ x ∈ xs, ∀ y ∈ ys, f x.2 y.2 = g x.2 y.2) : commonSum f xs ys = commonSum g xs ys := by
  unfold commonSum
  congr 1
  refine List.map_congr_left fun x hx => congrArg List.sum (List.map_congr_left fun y hy => ?_)
  rw [h x hx y hy]

/-- The sum over the common keys is zero when each summand is. -/
theorem commonSum_eq_zero {f : α → β → ℕ} {xs : List (κ × α)} {ys : List (κ × β)} :
    commonSum f xs ys = 0 ↔ ∀ key a b, (key, a) ∈ xs → (key, b) ∈ ys → f a b = 0 := by
  simp only [commonSum, List.sum_eq_zero_iff_forall_eq_nat, List.forall_mem_map]
  constructor
  · intro h key a b ha hb
    exact (if_pos rfl).symm.trans (h (key, a) ha (key, b) hb)
  · intro h x hx y hy
    split_ifs with heq
    · exact h x.1 x.2 y.2 hx (heq ▸ hy)
    · rfl

/-- A key that is not there contributes nothing. -/
theorem sum_under_key_of_not_mem (g : β → ℕ) {key : κ} {ys : List (κ × β)}
    (h : ∀ y ∈ ys, y.1 ≠ key) : (ys.map fun y => if key = y.1 then g y.2 else 0).sum = 0 := by
  induction ys with
  | nil => rfl
  | cons y ys ih =>
    rw [List.map_cons, List.sum_cons, if_neg (Ne.symm (h y List.mem_cons_self)),
      ih fun other hother => h other (List.mem_cons_of_mem _ hother)]

/-- Where each key stands once, summing over the entries under a key is looking it up. -/
theorem sum_under_key_of_mem (g : β → ℕ) {key : κ} {value : β} {ys : List (κ × β)}
    (hsorted : ys.Pairwise fun a b => a.1 < b.1) (h : (key, value) ∈ ys) :
    (ys.map fun y => if key = y.1 then g y.2 else 0).sum = g value := by
  induction ys with
  | nil => exact absurd h List.not_mem_nil
  | cons y ys ih =>
    obtain ⟨hhead, hrest⟩ := List.pairwise_cons.mp hsorted
    rw [List.map_cons, List.sum_cons]
    rcases List.mem_cons.mp h with rfl | hmem
    · rw [if_pos rfl, sum_under_key_of_not_mem g fun other hother => ne_of_gt (hhead other hother),
        Nat.add_zero]
    · rw [if_neg (ne_of_gt (hhead _ hmem)), ih hrest hmem, Nat.zero_add]

end Common

end Library
