import Mathlib.Data.List.Basic

/-!
# Fields between separators

A text is cut at its separators, but not at those inside brackets. Brackets do not nest. `Fields` says
what the fields of a text are, and `scan` finds them in one pass.
-/

namespace Library

variable {α : Type*}

/-- The two brackets and the separator. -/
structure Marks (α : Type*) where
  opening : α
  closing : α
  separator : α
  closing_ne_opening : closing ≠ opening
  separator_ne_opening : separator ≠ opening
  separator_ne_closing : separator ≠ closing

namespace Marks

variable (m : Marks α)

/-- Neither bracket. -/
def Plain (c : α) : Prop := c ≠ m.opening ∧ c ≠ m.closing

/-- The brackets of the text are balanced and not nested. -/
inductive Balanced : List α → Prop
  | nil : Balanced []
  | plain {c : α} {text : List α} (hc : m.Plain c) (rest : Balanced text) : Balanced (c :: text)
  | group {inner text : List α} (hinner : ∀ c ∈ inner, m.Plain c) (rest : Balanced text) :
      Balanced (m.opening :: (inner ++ m.closing :: text))

/-- A balanced text without a separator outside its brackets. -/
inductive Field : List α → Prop
  | nil : Field []
  | plain {c : α} {text : List α} (hc : m.Plain c) (hsep : c ≠ m.separator) (rest : Field text) :
      Field (c :: text)
  | group {inner text : List α} (hinner : ∀ c ∈ inner, m.Plain c) (rest : Field text) :
      Field (m.opening :: (inner ++ m.closing :: text))

/-- The text consists of the given fields, of which there is at least one. -/
structure Fields (text : List α) (fields : List (List α)) : Prop where
  nonempty : fields ≠ []
  text_eq : text = [m.separator].intercalate fields
  each : ∀ field ∈ fields, m.Field field

variable {m} in
/-- A field is balanced. -/
theorem Field.balanced {field : List α} (h : m.Field field) : m.Balanced field := by
  induction h with
  | nil => exact .nil
  | plain hc _ _ ih => exact .plain hc ih
  | group hinner _ ih => exact .group hinner ih

variable {m} in
/-- Two balanced texts are balanced together. -/
theorem Balanced.append {text rest : List α} (h : m.Balanced text) (hrest : m.Balanced rest) :
    m.Balanced (text ++ rest) := by
  induction h with
  | nil => exact hrest
  | plain hc _ ih => exact .plain hc ih
  | group hinner _ ih =>
    rw [List.cons_append, List.append_assoc, List.cons_append]
    exact .group hinner ih

/-- Two pieces in front of the first field are one. -/
theorem map_modifyHead_modifyHead (front back : List α) (found : Option (List (List α))) :
    (found.map (List.modifyHead (back ++ ·))).map (List.modifyHead (front ++ ·))
      = found.map (List.modifyHead (front ++ back ++ ·)) := by
  rw [Option.map_map]
  congr 1
  funext fields
  rw [Function.comp_apply, List.modifyHead_modifyHead]
  congr 1
  funext field
  exact (List.append_assoc front back field).symm

/-- The fields of a text, with one more symbol in front. -/
theorem intercalate_modifyHead {sep : List α} (c : α) {fields : List (List α)} (h : fields ≠ []) :
    sep.intercalate (fields.modifyHead (c :: ·)) = c :: sep.intercalate fields := by
  obtain ⟨field, rest, rfl⟩ := List.exists_cons_of_ne_nil h
  rw [List.modifyHead_cons]
  cases rest with
  | nil => rfl
  | cons next rest => rw [List.intercalate_cons_cons, List.intercalate_cons_cons]; rfl

/-- What is in the text is a separator or in a field. -/
theorem mem_of_mem_intercalate {sep : List α} {fields : List (List α)} {c : α}
    (h : c ∈ sep.intercalate fields) : c ∈ sep ∨ ∃ field ∈ fields, c ∈ field := by
  induction fields with
  | nil => exact absurd h List.not_mem_nil
  | cons field rest ih =>
    cases rest with
    | nil =>
      rw [List.intercalate_singleton] at h
      exact .inr ⟨field, List.mem_cons_self, h⟩
    | cons next rest =>
      rw [List.intercalate_cons_cons, List.append_assoc] at h
      rcases List.mem_append.mp h with h | h
      · exact .inr ⟨field, List.mem_cons_self, h⟩
      · rcases List.mem_append.mp h with h | h
        · exact .inl h
        · obtain h | ⟨other, hother, hmem⟩ := ih h
          · exact .inl h
          · exact .inr ⟨other, List.mem_cons_of_mem _ hother, hmem⟩

variable [DecidableEq α]

/-- The fields of a text, or nothing where its brackets are not balanced. -/
def scan : Bool → List α → Option (List (List α))
  | false, [] => some [[]]
  | true, [] => none
  | inside, c :: rest =>
      if c = m.opening then
        if inside then none else (scan true rest).map (List.modifyHead (c :: ·))
      else if c = m.closing then
        if inside then (scan false rest).map (List.modifyHead (c :: ·)) else none
      else if c = m.separator ∧ ¬ inside then (scan false rest).map ([] :: ·)
      else (scan inside rest).map (List.modifyHead (c :: ·))

variable {m}

/-! ## What the scan accepts -/

/-- A plain character goes into the current field. -/
theorem scan_plain {inside : Bool} {c : α} (rest : List α) (hc : m.Plain c)
    (hsep : c = m.separator → inside = true) :
    m.scan inside (c :: rest) = (m.scan inside rest).map (List.modifyHead (c :: ·)) := by
  have hcut : ¬ (c = m.separator ∧ ¬ inside = true) := fun h => h.2 (hsep h.1)
  cases inside <;> rw [scan, if_neg hc.1, if_neg hc.2, if_neg hcut]

/-- An opening mark starts a bracket. -/
theorem scan_opening (rest : List α) :
    m.scan false (m.opening :: rest)
      = (m.scan true rest).map (List.modifyHead (m.opening :: ·)) := by
  rw [scan, if_pos rfl, if_neg Bool.false_ne_true]

/-- A closing mark ends a bracket. -/
theorem scan_closing (rest : List α) :
    m.scan true (m.closing :: rest)
      = (m.scan false rest).map (List.modifyHead (m.closing :: ·)) := by
  rw [scan, if_neg m.closing_ne_opening, if_pos rfl, if_pos rfl]

/-- A separator outside brackets ends the field. -/
theorem scan_separator (rest : List α) :
    m.scan false (m.separator :: rest) = (m.scan false rest).map ([] :: ·) := by
  rw [scan, if_neg m.separator_ne_opening, if_neg m.separator_ne_closing,
    if_pos ⟨rfl, Bool.false_ne_true⟩]

/-- Inside brackets everything but a bracket goes into the field. -/
theorem scan_inner {inner : List α} (hinner : ∀ c ∈ inner, m.Plain c) (rest : List α) :
    m.scan true (inner ++ rest) = (m.scan true rest).map (List.modifyHead (inner ++ ·)) := by
  induction inner with
  | nil =>
    have hid : List.modifyHead (([] : List α) ++ ·) = (id : List (List α) → List (List α)) := by
      funext fields
      cases fields <;> rfl
    rw [List.nil_append, hid, Option.map_id, id]
  | cons c inner ih =>
    obtain ⟨hc, hinner⟩ := List.forall_mem_cons.mp hinner
    rw [List.cons_append, scan_plain _ hc fun _ => rfl, ih hinner]
    exact map_modifyHead_modifyHead [c] inner _

/-- A field goes into the first field of the rest. -/
theorem scan_field {field : List α} (h : m.Field field) (rest : List α) :
    m.scan false (field ++ rest) = (m.scan false rest).map (List.modifyHead (field ++ ·)) := by
  induction h with
  | nil =>
    have hid : List.modifyHead (([] : List α) ++ ·) = (id : List (List α) → List (List α)) := by
      funext fields
      cases fields <;> rfl
    rw [List.nil_append, hid, Option.map_id, id]
  | @plain c text hc hsep _ ih =>
    rw [List.cons_append, scan_plain _ hc fun heq => absurd heq hsep, ih]
    exact map_modifyHead_modifyHead [c] text _
  | @group inner text hinner _ ih =>
    rw [List.cons_append, List.append_assoc, List.cons_append, scan_opening, scan_inner hinner,
      scan_closing, ih]
    have hclosing := map_modifyHead_modifyHead [m.closing] text (m.scan false rest)
    have hinnerText := map_modifyHead_modifyHead inner (m.closing :: text) (m.scan false rest)
    have hall := map_modifyHead_modifyHead [m.opening] (inner ++ m.closing :: text)
      (m.scan false rest)
    simp only [List.singleton_append] at hclosing hall
    rw [hclosing, hinnerText, hall]

/-- The scan finds the fields of a text. -/
theorem scan_of_fields {text : List α} {fields : List (List α)} (h : m.Fields text fields) :
    m.scan false text = some fields := by
  obtain ⟨hne, rfl, heach⟩ := h
  induction fields with
  | nil => exact absurd rfl hne
  | cons field rest ih =>
    obtain ⟨hfield, hrest⟩ := List.forall_mem_cons.mp heach
    cases rest with
    | nil =>
      have hscan := scan_field hfield []
      rw [List.append_nil] at hscan
      rw [List.intercalate_singleton, hscan, scan, Option.map_some, List.modifyHead_cons,
        List.append_nil]
    | cons next rest =>
      rw [List.intercalate_cons_cons, List.append_assoc, scan_field hfield, List.singleton_append,
        scan_separator, ih (List.cons_ne_nil _ _) hrest, Option.map_some, Option.map_some,
        List.modifyHead_cons, List.append_nil]

/-- What the scan returns are the fields; inside brackets, the rest of the group comes first. -/
theorem fields_of_scan {inside : Bool} {text : List α} {fields : List (List α)}
    (h : m.scan inside text = some fields) :
    if inside then ∃ inner rest field others, text = inner ++ m.closing :: rest
        ∧ (∀ c ∈ inner, m.Plain c) ∧ m.Fields rest (field :: others)
        ∧ fields = (inner ++ m.closing :: field) :: others
    else m.Fields text fields := by
  induction text generalizing inside fields with
  | nil =>
    cases inside with
    | true => cases h
    | false =>
      obtain rfl := Option.some.inj h
      refine ⟨List.cons_ne_nil _ _, rfl, fun field hfield => ?_⟩
      obtain rfl := List.mem_singleton.mp hfield
      exact .nil
  | cons c rest ih =>
    rw [scan] at h
    split_ifs at h with hopen hinside hclose hinside hcut
    · -- an opening bracket, outside
      obtain ⟨found, hfound, rfl⟩ := Option.map_eq_some_iff.mp h
      obtain ⟨inner, tail, field, others, rfl, hinner, hfields, rfl⟩ := ih hfound
      have hother : ∀ other ∈ others, m.Field other := fun other hmem =>
        hfields.each other (List.mem_cons_of_mem _ hmem)
      have hfield := hfields.each field List.mem_cons_self
      rw [if_neg hinside, hopen]
      refine ⟨List.cons_ne_nil _ _, ?_, ?_⟩
      · rw [hfields.text_eq]
        cases others with
        | nil => simp [List.intercalate_singleton]
        | cons next others => simp [List.intercalate_cons_cons]
      · exact List.forall_mem_cons.mpr ⟨.group hinner hfield, hother⟩
    · -- a closing bracket, inside
      obtain ⟨found, hfound, rfl⟩ := Option.map_eq_some_iff.mp h
      have hfields : m.Fields rest found := ih hfound
      obtain ⟨field, others, rfl⟩ := List.exists_cons_of_ne_nil hfields.nonempty
      rw [if_pos hinside, hclose]
      exact ⟨[], rest, field, others, rfl, nofun, hfields, rfl⟩
    · -- a separator, outside
      obtain ⟨found, hfound, rfl⟩ := Option.map_eq_some_iff.mp h
      have hfields : m.Fields rest found := ih hfound
      obtain ⟨field, others, rfl⟩ := List.exists_cons_of_ne_nil hfields.nonempty
      rw [if_neg hcut.2, hcut.1]
      refine ⟨List.cons_ne_nil _ _, ?_, List.forall_mem_cons.mpr ⟨.nil, hfields.each⟩⟩
      rw [List.intercalate_cons_cons, ← hfields.text_eq]
      rfl
    · obtain ⟨found, hfound, rfl⟩ := Option.map_eq_some_iff.mp h
      have hc : m.Plain c := ⟨hopen, hclose⟩
      cases inside with
      | true =>
        obtain ⟨inner, tail, field, others, rfl, hinner, hfields, rfl⟩ := ih hfound
        exact ⟨c :: inner, tail, field, others, rfl, List.forall_mem_cons.mpr ⟨hc, hinner⟩, hfields,
          rfl⟩
      | false =>
        have hfields : m.Fields rest found := ih hfound
        have hsep : c ≠ m.separator := fun heq => hcut ⟨heq, Bool.false_ne_true⟩
        obtain ⟨field, others, rfl⟩ := List.exists_cons_of_ne_nil hfields.nonempty
        obtain ⟨hfield, hothers⟩ := List.forall_mem_cons.mp hfields.each
        refine ⟨List.cons_ne_nil _ _, ?_, List.forall_mem_cons.mpr ⟨.plain hc hsep hfield, hothers⟩⟩
        rw [hfields.text_eq]
        exact (intercalate_modifyHead c (List.cons_ne_nil _ _)).symm

theorem scan_eq_some_iff {text : List α} {fields : List (List α)} :
    m.scan false text = some fields ↔ m.Fields text fields :=
  ⟨fields_of_scan, scan_of_fields⟩

theorem Fields.unique {text : List α} {fields fields' : List (List α)} (h : m.Fields text fields)
    (h' : m.Fields text fields') : fields = fields' :=
  Option.some.inj ((scan_of_fields h).symm.trans (scan_of_fields h'))

/-! ## Balanced texts -/

/-- A text has fields exactly when its brackets are balanced. -/
theorem balanced_iff {text : List α} : m.Balanced text ↔ ∃ fields, m.Fields text fields := by
  constructor
  · intro h
    -- On how the text is balanced; a separator at the front starts a new field.
    induction h with
    | nil => exact ⟨[[]], scan_eq_some_iff.mp rfl⟩
    | @plain c text hc _ ih =>
      obtain ⟨fields, hfields⟩ := ih
      by_cases hsep : c = m.separator
      · refine ⟨[] :: fields, scan_eq_some_iff.mp ?_⟩
        rw [hsep, scan_separator, scan_of_fields hfields, Option.map_some]
      · refine ⟨fields.modifyHead (c :: ·), scan_eq_some_iff.mp ?_⟩
        rw [scan_plain _ hc fun heq => absurd heq hsep, scan_of_fields hfields, Option.map_some]
    | @group inner text hinner _ ih =>
      obtain ⟨fields, hfields⟩ := ih
      have hgroup : m.Field (m.opening :: (inner ++ m.closing :: [])) := .group hinner .nil
      have hscan := scan_field hgroup text
      rw [scan_of_fields hfields, Option.map_some, List.cons_append, List.append_assoc] at hscan
      exact ⟨_, scan_eq_some_iff.mp hscan⟩
  · rintro ⟨fields, hne, rfl, heach⟩
    -- On the fields; each is balanced, and a separator is no bracket.
    induction fields with
    | nil => exact absurd rfl hne
    | cons field rest ih =>
      obtain ⟨hfield, hrest⟩ := List.forall_mem_cons.mp heach
      -- The last field has no separator behind it.
      cases rest with
      | nil =>
        rw [List.intercalate_singleton]
        exact hfield.balanced
      | cons next rest =>
        rw [List.intercalate_cons_cons, List.append_assoc]
        refine hfield.balanced.append (.plain ?_ (ih (List.cons_ne_nil _ _) hrest))
        exact ⟨m.separator_ne_opening, m.separator_ne_closing⟩

end Marks

end Library
