import ZeroCpu.Assembler.Spaces
import ZeroCpu.Library.Fields

/-!
# Operand lists

Reference: `src/assembler/Assembler.cpp` (`splitOperands`).

The scan of `splitOperands` against the declarative fields of its text. The scan looks for an empty
field at every comma but not at the end of the text.
-/

namespace ZeroCpu.Assembler

open Library Binary

/-- The brackets and the comma of an operand list. -/
def operandMarks : Marks UInt8 where
  opening := '['
  closing := ']'
  separator := ','
  closing_ne_opening := by decide
  separator_ne_opening := by decide
  separator_ne_closing := by decide

instance (text : Str) : Decidable (Blank text) :=
  inferInstanceAs (Decidable (∀ ch ∈ text, isSpace ch = true))

/-! ## What the scan keeps -/

/-- What the scan returns for the text behind the last comma. -/
def lastValue (text : Str) : List Str := if Blank text then [] else [trim text]

/-- What the scan returns for a list of fields. -/
inductive Kept : List Str → List Str → Prop
  | last (field : Str) : Kept [field] (lastValue field)
  | cons {field : Str} {fields values : List Str} (hfield : ¬ Blank field)
      (hne : fields ≠ []) (rest : Kept fields values) : Kept (field :: fields) (trim field :: values)

/-- A character moves from the text into the first field. -/
theorem modifyHead_append_cons (front : Str) (ch : UInt8) (fields : List Str) :
    (fields.modifyHead (ch :: ·)).modifyHead (front ++ ·)
      = fields.modifyHead (front ++ [ch] ++ ·) := by
  cases fields with
  | nil => rfl
  | cons field rest => simp only [List.modifyHead_cons, List.append_assoc, List.singleton_append]

theorem modifyHead_nil_append (fields : List Str) : fields.modifyHead ([] ++ ·) = fields := by
  cases fields <;> rfl

/-- The last field is kept unless it is blank. -/
theorem Kept.singleton_iff {field : Str} {values : List Str} :
    Kept [field] values ↔ values = lastValue field := by
  constructor
  · intro h
    cases h with
    | last => rfl
    | cons _ hne _ => exact absurd rfl hne
  · rintro rfl
    exact .last field

/-- A field before the last is kept and must not be blank. -/
theorem Kept.cons_iff {field : Str} {fields values : List Str} (hne : fields ≠ []) :
    Kept (field :: fields) values
      ↔ ¬ Blank field ∧ ∃ rest, values = trim field :: rest ∧ Kept fields rest := by
  constructor
  · intro h
    cases h with
    | last => exact absurd rfl hne
    | cons hfield _ rest => exact ⟨hfield, _, rfl, rest⟩
  · rintro ⟨hfield, rest, rfl, hrest⟩
    exact .cons hfield hne hrest

/-- The rest of the text is appended unless it is blank. -/
theorem append_lastValue (operands : List Str) (text : Str) :
    (if trim text = [] then operands else operands ++ [trim text]) = operands ++ lastValue text := by
  by_cases h : Blank text
  · rw [lastValue, if_pos h, if_pos (trim_eq_nil_iff.mpr h), List.append_nil]
  · rw [lastValue, if_neg h, if_neg (trim_eq_nil_iff.not.mpr h)]

/-- The values the scan returns when the rest of the text has the fields `found` and `operands` and
`current` have been read. -/
def Reads (operands : List Str) (current : Str) (found : Option (List Str)) (values : List Str) :
    Prop :=
  ∃ fields rest, found = some fields ∧ Kept (fields.modifyHead (current ++ ·)) rest
    ∧ values = operands ++ rest

/-- A text without fields is not read. -/
theorem not_reads_none {operands values : List Str} {current : Str} :
    ¬ Reads operands current none values := by
  rintro ⟨_, _, h, _⟩
  cases h

/-- A symbol of the field goes behind what has been read of it. -/
theorem reads_push {operands values : List Str} {current : Str} {found : Option (List Str)}
    {ch : UInt8} :
    Reads operands (current ++ [ch]) found values
      ↔ Reads operands current (found.map (List.modifyHead (ch :: ·))) values := by
  constructor
  · rintro ⟨fields, rest, rfl, hkept, rfl⟩
    refine ⟨_, rest, rfl, ?_, rfl⟩
    rwa [modifyHead_append_cons]
  · rintro ⟨_, rest, hmap, hkept, rfl⟩
    obtain ⟨fields, rfl, rfl⟩ := Option.map_eq_some_iff.mp hmap
    rw [modifyHead_append_cons] at hkept
    exact ⟨fields, rest, rfl, hkept, rfl⟩

/-- A comma ends the field. -/
theorem reads_comma {operands values : List Str} {current text : Str} :
    Reads operands current ((operandMarks.scan false text).map ([] :: ·)) values
      ↔ ¬ Blank current
        ∧ Reads (operands ++ [trim current]) [] (operandMarks.scan false text) values := by
  constructor
  · rintro ⟨_, rest, hmap, hkept, rfl⟩
    obtain ⟨fields, hfields, rfl⟩ := Option.map_eq_some_iff.mp hmap
    rw [List.modifyHead_cons, List.append_nil,
      Kept.cons_iff (Marks.scan_eq_some_iff.mp hfields).nonempty] at hkept
    obtain ⟨hcurrent, rest, rfl, hkept⟩ := hkept
    refine ⟨hcurrent, fields, rest, hfields, ?_, ?_⟩
    · rwa [modifyHead_nil_append]
    · rw [List.append_assoc, List.singleton_append]
  · rintro ⟨hcurrent, fields, rest, hfields, hkept, rfl⟩
    rw [modifyHead_nil_append] at hkept
    refine ⟨[] :: fields, trim current :: rest, ?_, ?_, ?_⟩
    · rw [hfields, Option.map_some]
    · rw [List.modifyHead_cons, List.append_nil]
      exact .cons hcurrent (Marks.scan_eq_some_iff.mp hfields).nonempty hkept
    · rw [List.append_assoc, List.singleton_append]

/-- At the end of the text the last field is left out if it is blank. -/
theorem reads_end {operands values : List Str} {current : Str} :
    Reads operands current (some [[]]) values ↔ operands ++ lastValue current = values := by
  constructor
  · rintro ⟨_, rest, hfields, hkept, rfl⟩
    obtain rfl := Option.some.inj hfields
    rw [List.modifyHead_cons, List.append_nil, Kept.singleton_iff] at hkept
    rw [hkept]
  · rintro rfl
    refine ⟨[[]], lastValue current, rfl, ?_, rfl⟩
    rw [List.modifyHead_cons, List.append_nil]
    exact .last current

theorem error_eq_ok_iff {message : Str} {values : List Str} {p : Prop} (hp : ¬ p) :
    (Except.error message : Except Str (List Str)) = .ok values ↔ p :=
  ⟨nofun, fun h => absurd h hp⟩

/-- The scan finds the fields of the text, the first one behind what it has already read. -/
theorem splitOperandsFrom_eq_ok_iff {operands values : List Str} {current text : Str}
    {inside : Bool} :
    splitOperandsFrom operands current inside text = .ok values
      ↔ Reads operands current (operandMarks.scan inside text) values := by
  induction text generalizing operands current inside with
  | nil =>
    cases inside with
    | true => exact error_eq_ok_iff not_reads_none
    | false =>
      rw [splitOperandsFrom, if_neg Bool.false_ne_true, Marks.scan, reads_end, ← append_lastValue,
        Except.ok.injEq]
  | cons ch text ih =>
    rw [splitOperandsFrom]
    -- The scan and the grammar look at one character: an opening bracket, a closing one, a comma
    -- outside brackets, anything else.
    by_cases hopen : ch = '['
    · rw [if_pos hopen]
      subst hopen
      cases inside with
      | true => exact error_eq_ok_iff not_reads_none
      | false =>
        rw [if_neg Bool.false_ne_true, ih, reads_push]
        exact Iff.rfl
    rw [if_neg hopen]
    by_cases hclose : ch = ']'
    · rw [if_pos hclose]
      subst hclose
      cases inside with
      | true =>
        rw [if_pos rfl, ih, reads_push]
        exact Iff.rfl
      | false => exact error_eq_ok_iff not_reads_none
    rw [if_neg hclose]
    by_cases hcomma : ch = ',' ∧ ¬ inside = true
    · rw [if_pos hcomma]
      obtain ⟨rfl, hinside⟩ := hcomma
      obtain rfl := Bool.eq_false_iff.mpr hinside
      have hscan := Marks.scan_separator (m := operandMarks) text
      rw [show operandMarks.scan false (','.toUInt8 :: text) = _ from hscan, reads_comma]
      dsimp only
      by_cases hblank : trim current = []
      · rw [if_pos hblank]
        exact error_eq_ok_iff fun h => h.1 (trim_eq_nil_iff.mp hblank)
      · rw [if_neg hblank, ih, and_iff_right (trim_eq_nil_iff.not.mp hblank)]
    · rw [if_neg hcomma, ih, reads_push, Marks.scan_plain text ⟨hopen, hclose⟩]
      intro hsep
      by_contra hinside
      exact hcomma ⟨hsep, hinside⟩

/-- The splitter returns exactly the fields that are kept. -/
theorem splitOperands_eq_ok_iff {text : Str} {values : List Str} :
    splitOperands text = .ok values ↔ ∃ fields, operandMarks.Fields text fields ∧ Kept fields values := by
  rw [splitOperands, splitOperandsFrom_eq_ok_iff]
  constructor
  · rintro ⟨fields, rest, hfields, hkept, rfl⟩
    rw [modifyHead_nil_append] at hkept
    exact ⟨fields, Marks.scan_eq_some_iff.mp hfields, hkept⟩
  · rintro ⟨fields, hfields, hkept⟩
    refine ⟨fields, values, Marks.scan_eq_some_iff.mpr hfields, ?_, rfl⟩
    rwa [modifyHead_nil_append]

/-- What is kept: every field but the last, and the last unless it is blank. -/
theorem kept_iff {fields values : List Str} :
    Kept fields values ↔ ∃ init last, fields = init ++ [last] ∧ (∀ field ∈ init, ¬ Blank field)
      ∧ values = init.map trim ++ lastValue last := by
  constructor
  · intro h
    induction h with
    | last field => exact ⟨[], field, rfl, nofun, rfl⟩
    | @cons field _ _ hfield _ _ ih =>
      obtain ⟨init, last, rfl, hinit, rfl⟩ := ih
      exact ⟨field :: init, last, rfl, List.forall_mem_cons.mpr ⟨hfield, hinit⟩, rfl⟩
  · rintro ⟨init, last, rfl, hinit, rfl⟩
    induction init with
    | nil => exact .last last
    | cons field init ih =>
      obtain ⟨hfield, hinit⟩ := List.forall_mem_cons.mp hinit
      exact .cons hfield (List.append_ne_nil_of_right_ne_nil _ (List.cons_ne_nil _ _)) (ih hinit)

/-! ## Blank texts -/

/-- White space is no mark. -/
theorem ne_of_space {ch mark : UInt8} (hch : isSpace ch = true) (hmark : isSpace mark = false) :
    ch ≠ mark := by
  rintro rfl
  exact Bool.false_ne_true (hmark.symm.trans hch)

/-- A blank text is one field. -/
theorem field_of_blank {text : Str} (h : Blank text) : operandMarks.Field text := by
  induction text with
  | nil => exact .nil
  | cons ch text ih =>
    obtain ⟨hch, hrest⟩ := List.forall_mem_cons.mp h
    exact .plain ⟨ne_of_space hch (by decide), ne_of_space hch (by decide)⟩
      (ne_of_space hch (by decide)) (ih hrest)

/-- A field is the only field of its text. -/
theorem fields_of_field {text : Str} (h : operandMarks.Field text) :
    operandMarks.Fields text [text] where
  nonempty := List.cons_ne_nil _ _
  text_eq := (List.intercalate_singleton).symm
  each field hfield := by
    obtain rfl := List.mem_singleton.mp hfield
    exact h

theorem fields_of_blank {text : Str} {fields : List Str} (h : Blank text)
    (hfields : operandMarks.Fields text fields) : fields = [text] :=
  hfields.unique (fields_of_field (field_of_blank h))

/-! ## White space around an operand list -/

/-- White space in front of the current field does not matter. -/
theorem splitOperandsFrom_blank_current {before : Str} (h : Blank before) (operands : List Str)
    (current text : Str) (inside : Bool) :
    splitOperandsFrom operands (before ++ current) inside text
      = splitOperandsFrom operands current inside text := by
  induction text generalizing operands current inside with
  | nil => rw [splitOperandsFrom, splitOperandsFrom, trim_blank_append h]
  | cons ch text ih =>
    rw [splitOperandsFrom, splitOperandsFrom, List.append_assoc, ih, ih, ih, trim_blank_append h]

/-- White space in front of the text goes into the current field. -/
theorem splitOperandsFrom_blank_append {before : Str} (h : Blank before) (operands : List Str)
    (current text : Str) (inside : Bool) :
    splitOperandsFrom operands current inside (before ++ text)
      = splitOperandsFrom operands (current ++ before) inside text := by
  induction before generalizing current with
  | nil => rw [List.nil_append, List.append_nil]
  | cons ch before ih =>
    obtain ⟨hch, hrest⟩ := List.forall_mem_cons.mp h
    have hcomma : ¬ (ch = ',' ∧ ¬ inside = true) := fun heq => ne_of_space hch (by decide) heq.1
    rw [List.cons_append, splitOperandsFrom, if_neg (ne_of_space hch (by decide)),
      if_neg (ne_of_space hch (by decide)), if_neg hcomma, ih hrest, List.append_assoc,
      List.singleton_append]

/-- White space at the end does not matter. -/
theorem splitOperandsFrom_append_blank {after : Str} (h : Blank after) (operands : List Str)
    (current text : Str) (inside : Bool) :
    splitOperandsFrom operands current inside (text ++ after)
      = splitOperandsFrom operands current inside text := by
  induction text generalizing operands current inside with
  | nil =>
    have hfront := splitOperandsFrom_blank_append h operands current [] inside
    rw [List.append_nil] at hfront
    rw [List.nil_append, hfront, splitOperandsFrom, splitOperandsFrom, trim_append_blank h]
  | cons ch text ih =>
    rw [List.cons_append, splitOperandsFrom, splitOperandsFrom, ih, ih, ih]
    dsimp only
    rw [ih]

/-- White space around an operand list makes no difference. -/
theorem splitOperands_trim (text : Str) : splitOperands (trim text) = splitOperands text := by
  obtain ⟨before, after, hbefore, hafter, heq⟩ := exists_surrounded text
  conv_rhs => rw [heq]
  have hcurrent := splitOperandsFrom_blank_current hbefore [] [] (trim text) false
  rw [List.append_nil] at hcurrent
  rw [splitOperands, splitOperands, splitOperandsFrom_append_blank hafter,
    splitOperandsFrom_blank_append hbefore, List.nil_append, hcurrent]

/-- A list of fields that are not blank is split into them. -/
theorem splitOperands_of_fields {text : Str} {fields : List Str}
    (hfields : operandMarks.Fields text fields) (hfull : ∀ field ∈ fields, ¬ Blank field) :
    splitOperands text = .ok (fields.map trim) := by
  obtain ⟨init, last, rfl⟩ := List.eq_nil_or_concat' fields |>.resolve_left hfields.nonempty
  refine splitOperands_eq_ok_iff.mpr ⟨_, hfields, kept_iff.mpr ⟨init, last, rfl, ?_, ?_⟩⟩
  · exact fun field hmem => hfull field (List.mem_append_left _ hmem)
  · have hlast := hfull last (List.mem_append_right _ List.mem_cons_self)
    rw [lastValue, if_neg hlast, List.map_append, List.map_singleton]

/-! ## The grammar of operand lists -/

/-- An operand list that ends in a comma, with something in front of every comma. -/
def OnlyLastEmpty (text : Str) : Prop :=
  ∃ init last, init ≠ [] ∧ operandMarks.Fields text (init ++ [last])
    ∧ (∀ field ∈ init, ¬ Blank field) ∧ Blank last

/-- The text is not blank, but one of its fields is. -/
def HasEmptyField (text : Str) : Prop :=
  ¬ Blank text ∧ ∃ fields, operandMarks.Fields text fields ∧ ∃ field ∈ fields, Blank field

/-- The text behind the first token of a line. -/
def argumentsOf (line : Str) : Str := trim (restOfLine (nextToken line).2)

/-- The line starts with a directive for numbers. -/
def isNumericDirective (line : Str) : Bool :=
  [".byte", ".word", ".qword"].any fun name => lowerCopy (nextToken line).1 == Str.ofString name

/-- The operand list is split as its grammar says, and lines with this operand list are rejected when
one of its fields is empty. -/
structure SplitByGrammar (text : Str) : Prop where
  accepted : (∃ values, splitOperands text = .ok values) ↔ operandMarks.Balanced text
    ∧ (¬ Blank text → ∀ fields, operandMarks.Fields text fields → ∀ field ∈ fields, ¬ Blank field)
  values : ∀ values fields, splitOperands text = .ok values → operandMarks.Fields text fields →
    values = if Blank text then [] else fields.map trim
  instruction_rejected : ∀ line lineNumber dataLabels, argumentsOf line = text →
    HasEmptyField text → ∃ message, parseInstructionLine line lineNumber dataLabels = .error message
  data_rejected : ∀ line lineNumber, argumentsOf line = text → isNumericDirective line →
    HasEmptyField text → ∃ message, parseDataDirective line lineNumber = .error message

theorem blank_argumentsOf {line : Str} : Blank (argumentsOf line) ↔ argumentsOf line = [] := by
  rw [← trim_eq_nil_iff, argumentsOf, trim_trim]

/-- The arguments of an instruction line have been split. -/
theorem splitOperands_of_instruction {line : Str} {lineNumber : ℕ} {dataLabels : LabelTable}
    {instruction : Instruction} (hne : argumentsOf line ≠ [])
    (h : parseInstructionLine line lineNumber dataLabels = .ok instruction) :
    ∃ values, splitOperands (argumentsOf line) = .ok values := by
  simp only [parseInstructionLine, bind_eq_ok, reject_eq_ok] at h
  obtain ⟨_, -, _, -, h⟩ := h
  change (if argumentsOf line = [] then _ else _) = _ at h
  rw [if_neg hne] at h
  obtain ⟨values, hvalues, -⟩ := bind_eq_ok.mp h
  exact ⟨values, hvalues⟩

/-- The arguments of a numeric directive have been split. -/
theorem splitOperands_of_numeric {arguments : Str} {width maximum lineNumber : ℕ} {minimum : ℤ}
    {bytes : List UInt8}
    (h : parseNumericDirective arguments width minimum maximum lineNumber = .ok bytes) :
    ∃ values, splitOperands arguments = .ok values := by
  obtain ⟨values, hvalues, -⟩ := bind_eq_ok.mp h
  exact ⟨values, hvalues⟩

/-- The arguments of a line with a numeric directive have been split. -/
theorem splitOperands_of_data {line : Str} {lineNumber : ℕ} {bytes : List UInt8}
    (hnumeric : isNumericDirective line) (h : parseDataDirective line lineNumber = .ok bytes) :
    ∃ values, splitOperands (argumentsOf line) = .ok values := by
  simp only [isNumericDirective, List.any_cons, List.any_nil, Bool.or_false, Bool.or_eq_true,
    beq_iff_eq] at hnumeric
  unfold parseDataDirective at h
  dsimp only at h
  split_ifs at h with hbyte hword hqword
  · exact splitOperands_of_numeric h
  · exact splitOperands_of_numeric h
  · exact splitOperands_of_numeric h
  · rcases hnumeric with hname | hname | hname
    · exact absurd hname hbyte
    · exact absurd hname hword
    · exact absurd hname hqword

/-- What returns nothing throws. -/
theorem exists_error_of {α : Type} {result : Except Str α} (h : ∀ a, result ≠ .ok a) :
    ∃ message, result = .error message := by
  cases result with
  | error message => exact ⟨message, rfl⟩
  | ok a => exact absurd rfl (h a)

/-- An accepted operand list has nothing blank in front of a comma. -/
theorem exists_of_accepted {text : Str} {values : List Str} (h : splitOperands text = .ok values) :
    ∃ init last, operandMarks.Fields text (init ++ [last]) ∧ (∀ field ∈ init, ¬ Blank field)
      ∧ values = init.map trim ++ lastValue last := by
  obtain ⟨fields, hfields, hkept⟩ := splitOperands_eq_ok_iff.mp h
  obtain ⟨init, last, rfl, hinit, hvalues⟩ := kept_iff.mp hkept
  exact ⟨init, last, hfields, hinit, hvalues⟩

/-- The last field is only blank in a blank text, or behind a comma. -/
theorem last_not_blank {text last : Str} {init : List Str} (h : ¬ OnlyLastEmpty text)
    (htext : ¬ Blank text) (hfields : operandMarks.Fields text (init ++ [last]))
    (hinit : ∀ field ∈ init, ¬ Blank field) : ¬ Blank last := by
  intro hlast
  by_cases hnil : init = []
  · have heq := hfields.text_eq
    rw [hnil, List.nil_append, List.intercalate_singleton] at heq
    exact htext (heq ▸ hlast)
  · exact h ⟨init, last, hnil, hfields, hinit, hlast⟩

/-- An empty field before the last is refused. -/
theorem not_accepted_of_empty {text : Str} (h : ¬ OnlyLastEmpty text) (hempty : HasEmptyField text) :
    ∀ values, splitOperands text ≠ .ok values := by
  intro values hvalues
  obtain ⟨htext, fields, hfields, field, hmem, hblank⟩ := hempty
  obtain ⟨init, last, hfields', hinit, -⟩ := exists_of_accepted hvalues
  obtain rfl := hfields.unique hfields'
  rcases List.mem_append.mp hmem with hmem | hmem
  · exact hinit field hmem hblank
  · obtain rfl := List.mem_singleton.mp hmem
    exact last_not_blank h htext hfields' hinit hblank

/-- Unless only the last field is empty, the splitter follows the grammar. -/
theorem splitByGrammar_of {text : Str} (h : ¬ OnlyLastEmpty text) : SplitByGrammar text where
  accepted := by
    constructor
    · rintro ⟨values, hvalues⟩
      obtain ⟨init, last, hfields, -, -⟩ := exists_of_accepted hvalues
      refine ⟨Marks.balanced_iff.mpr ⟨_, hfields⟩, fun htext fields hfields' field hmem hblank => ?_⟩
      exact not_accepted_of_empty h ⟨htext, fields, hfields', field, hmem, hblank⟩ values hvalues
    · rintro ⟨hbalanced, hfull⟩
      obtain ⟨fields, hfields⟩ := Marks.balanced_iff.mp hbalanced
      by_cases htext : Blank text
      · obtain rfl := fields_of_blank htext hfields
        exact ⟨_, splitOperands_eq_ok_iff.mpr ⟨_, hfields, .last text⟩⟩
      · obtain ⟨init, last, rfl⟩ := List.eq_nil_or_concat' fields |>.resolve_left hfields.nonempty
        refine ⟨_, splitOperands_eq_ok_iff.mpr ⟨_, hfields, kept_iff.mpr ⟨init, last, rfl, ?_, rfl⟩⟩⟩
        exact fun field hmem => hfull htext _ hfields field (List.mem_append_left _ hmem)
  values := by
    intro values fields hvalues hfields
    obtain ⟨init, last, hfields', hinit, rfl⟩ := exists_of_accepted hvalues
    obtain rfl := hfields.unique hfields'
    by_cases htext : Blank text
    · have hone := fields_of_blank htext hfields
      rw [← List.nil_append [text]] at hone
      obtain ⟨rfl, hlast⟩ := List.append_inj' hone rfl
      obtain rfl := List.singleton_inj.mp hlast
      rw [if_pos htext, lastValue, if_pos htext]
      rfl
    · have hlast := last_not_blank h htext hfields hinit
      rw [if_neg htext, lastValue, if_neg hlast, List.map_append, List.map_singleton]
  instruction_rejected := by
    rintro line lineNumber dataLabels rfl hempty
    refine exists_error_of fun instruction hparse => ?_
    obtain ⟨values, hvalues⟩ := splitOperands_of_instruction (mt blank_argumentsOf.mpr hempty.1) hparse
    exact not_accepted_of_empty h hempty values hvalues
  data_rejected := by
    rintro line lineNumber rfl hnumeric hempty
    refine exists_error_of fun bytes hparse => ?_
    obtain ⟨values, hvalues⟩ := splitOperands_of_data hnumeric hparse
    exact not_accepted_of_empty h hempty values hvalues

/-- A comma in the text: it is not blank. -/
theorem not_blank_of_two {text : Str} {init : List Str} {last : Str} (hne : init ≠ [])
    (hfields : operandMarks.Fields text (init ++ [last])) : ¬ Blank text := by
  intro hblank
  have hone := fields_of_blank hblank hfields
  have hlength := congrArg List.length hone
  rw [List.length_append, List.length_singleton, List.length_singleton] at hlength
  exact hne (List.length_eq_zero_iff.mp (by omega))

/-- A trailing comma is accepted. -/
theorem not_splitByGrammar_of {text : Str} (h : OnlyLastEmpty text) : ¬ SplitByGrammar text := by
  obtain ⟨init, last, hne, hfields, hinit, hlast⟩ := h
  intro hgrammar
  have hok : ∃ values, splitOperands text = .ok values :=
    ⟨_, splitOperands_eq_ok_iff.mpr ⟨_, hfields, kept_iff.mpr ⟨init, last, rfl, hinit, rfl⟩⟩⟩
  obtain ⟨-, hfull⟩ := hgrammar.accepted.mp hok
  refine hfull (not_blank_of_two hne hfields) _ hfields last ?_ hlast
  exact List.mem_append_right _ List.mem_cons_self

/-- `splitOperands` follows the grammar of operand lists, and the lines that hold them are rejected
for an empty operand, exactly for the texts that do not end in a comma with something in front of
every comma. -/
theorem operand_lists_split_by_grammar (text : Str) :
    SplitByGrammar text ↔ ¬ OnlyLastEmpty text :=
  ⟨fun h hlast => not_splitByGrammar_of hlast h, splitByGrammar_of⟩

/-- The trailing comma of `PUSH R0,` goes unnoticed. -/
theorem trailing_comma_accepted :
    ¬ SplitByGrammar (Str.ofString "R0,")
      ∧ parseInstructionLine (Str.ofString "PUSH R0,") 1 [] = .ok ⟨.PUSH, .register .R0, .none⟩ := by
  refine ⟨not_splitByGrammar_of ?_, by decide +kernel⟩
  refine ⟨[Str.ofString "R0"], [], List.cons_ne_nil _ _, ?_, ?_, .nil⟩
  · exact Marks.scan_eq_some_iff.mp (by decide +kernel)
  · decide

end ZeroCpu.Assembler
