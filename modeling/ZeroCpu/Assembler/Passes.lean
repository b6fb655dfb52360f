import Mathlib.Data.List.TakeDrop
import Mathlib.Data.List.Nodup
import ZeroCpu.Assembler.Assembler

/-!
# The passes agree

What a source text says line by line, stated without either pass (`strippedLine`, `labelsOf`,
`sectionAt`, `isInstructionLine`, `dataLineBytes`), and the proof that both passes of the assembler
follow it: each pass keeps an invariant that ties its loop variables to the lines already read.
-/

namespace ZeroCpu.Assembler

open Library Binary MemoryMap

/-! ## Reading a text line by line -/

/-- The labels in front of a line, in order. -/
def labelsIn : ℕ → Str → List Str
  | 0, _ => []
  | fuel + 1, line =>
      match tryConsumeLabel line with
      | (none, _) => []
      | (some label, line) => label :: labelsIn fuel (trim line)

/-- A line without its comment. -/
def withoutComment (text : Str) : Str := trim (removeComment text)

/-- The labels a line defines. -/
def labelsOf (text : Str) : List Str := labelsIn ((withoutComment text).length + 1) (withoutComment text)

/-- A line without its comment and labels. -/
def strippedLine (text : Str) : Str :=
  skipLabels ((withoutComment text).length + 1) (withoutComment text)

/-- The section after a line, given the section before it. -/
def sectionAfter (sect : AssemblySection) (text : Str) : AssemblySection :=
  if isSectionDirective (strippedLine text) then sectionFromDirective (strippedLine text) else sect

/-- The section that line `k` (counted from zero) is in. -/
def sectionAt (lines : List Str) (k : ℕ) : AssemblySection :=
  (lines.take k).foldl sectionAfter .Text

/-- Whether a line holds something to assemble. -/
def isStatement (text : Str) : Bool :=
  strippedLine text != [] && !isSectionDirective (strippedLine text)
    && !isEntryDirective (strippedLine text)

/-- Whether line `k` is an instruction line. -/
def isInstructionLine (lines : List Str) (k : ℕ) : Bool :=
  match lines[k]? with
  | some text => isStatement text && sectionAt lines k == .Text
  | none => false

/-- The data bytes of line `k`. -/
def dataLineBytes (lines : List Str) (k : ℕ) : List UInt8 :=
  match lines[k]? with
  | some text =>
      if isStatement text && sectionAt lines k == .Data then
        ((parseDataDirective (strippedLine text) (k + 1)).toOption).getD []
      else []
  | none => []

/-- The number of instruction lines before line `k`. -/
def instructionsBefore (lines : List Str) (k : ℕ) : ℕ :=
  (List.range k).countP (isInstructionLine lines)

/-- The data bytes of the lines before line `k`. -/
def dataBefore (lines : List Str) (k : ℕ) : List UInt8 :=
  (List.range k).flatMap (dataLineBytes lines)

/-- The section after a line. -/
theorem sectionAt_succ {lines : List Str} {k : ℕ} {text : Str} (h : lines[k]? = some text) :
    sectionAt lines (k + 1) = sectionAfter (sectionAt lines k) text := by
  unfold sectionAt
  rw [List.take_add_one, h, Option.toList_some, List.foldl_append, List.foldl_cons, List.foldl_nil]

/-- The number of instructions after a line. -/
theorem instructionsBefore_succ (lines : List Str) (k : ℕ) :
    instructionsBefore lines (k + 1)
      = instructionsBefore lines k + if isInstructionLine lines k then 1 else 0 := by
  simp [instructionsBefore, List.range_succ, List.countP_append, List.countP_cons]

theorem dataBefore_succ (lines : List Str) (k : ℕ) :
    dataBefore lines (k + 1) = dataBefore lines k ++ dataLineBytes lines k := by
  simp [dataBefore, List.range_succ]

/-! ## The label loops -/

/-- Trimming does not make a text longer. -/
theorem length_trim_le (text : Str) : (trim text).length ≤ text.length := by
  have h : ∀ l : Str, (l.dropWhile isSpace).length ≤ l.length :=
    fun l => (List.dropWhile_suffix isSpace).length_le
  calc (trim text).length ≤ (text.dropWhile isSpace).length := by
        rw [trim, List.length_reverse]
        exact (h _).trans (by rw [List.length_reverse])
    _ ≤ text.length := h text

/-- Consuming a label removes at least its colon. -/
theorem tryConsumeLabel_length {line label rest : Str} (h : tryConsumeLabel line = (some label, rest)) :
    rest.length < line.length := by
  unfold tryConsumeLabel at h
  simp only at h
  have hspan := List.span_eq_takeWhile_dropWhile (p := fun (ch : UInt8) => ch != ':') (trim line)
  split at h
  · simp at h
  · rename_i before colon tail heq
    split at h
    · simp only [Prod.mk.injEq] at h
      rw [heq, Prod.mk.injEq] at hspan
      have hsuffix := (List.dropWhile_suffix (fun (ch : UInt8) => ch != ':')
        (l := trim line)).length_le
      rw [← hspan.2, List.length_cons] at hsuffix
      have h1 := length_trim_le tail
      have h2 := length_trim_le line
      rw [h.2] at h1
      omega
    · simp at h

/-- The label loop never runs out of rounds: any bound above the length of the line gives the same
result. -/
theorem skipLabels_fuel {fuel fuel' : ℕ} {line : Str} (h : line.length < fuel)
    (h' : line.length < fuel') : skipLabels fuel line = skipLabels fuel' line := by
  induction fuel generalizing line fuel' with
  | zero => omega
  | succ fuel ih =>
    obtain ⟨fuel', rfl⟩ : ∃ n, fuel' = n + 1 := ⟨fuel' - 1, by omega⟩
    rw [skipLabels, skipLabels]
    split
    · rfl
    · rename_i label rest heq
      have h1 := tryConsumeLabel_length heq
      have h2 := length_trim_le rest
      exact ih (by omega) (by omega)

/-! ## The symbol pass -/

/-- Enter all labels of a line at the current position. -/
def SymbolPass.defineAll (pass : SymbolPass) (labels : List Str) : SymbolPass :=
  match pass.sect with
  | .Text => { pass with
      code_labels := pass.code_labels ++ labels.map fun l => (l, pass.instructionIndex) }
  | .Data => { pass with
      data_labels := pass.data_labels ++ labels.map fun l => (l, kUserDataBase + pass.dataOffset) }

/-- The names defined so far. -/
def SymbolPass.names (pass : SymbolPass) : List Str :=
  (pass.code_labels ++ pass.data_labels).map Prod.fst

/-- A name is found exactly when the table has it. -/
theorem lookup_isSome_iff {table : LabelTable} {name : Str} :
    (table.lookup name).isSome = true ↔ name ∈ table.map Prod.fst := by
  induction table with
  | nil => simp
  | cons entry rest ih =>
    obtain ⟨key, value⟩ := entry
    rw [List.lookup_cons]
    by_cases h : name = key
    · simp [h]
    · have hne : (name == key) = false := by simpa using h
      rw [hne, List.map_cons, List.mem_cons]
      simp only [h, false_or]
      exact ih

/-- Defining a label adds its name. -/
theorem names_define (pass : SymbolPass) (label : Str) :
    (pass.define label).names.Perm (label :: pass.names) := by
  unfold SymbolPass.define SymbolPass.names
  cases pass.sect with
  | Text =>
    simp only [List.map_append, List.map_cons, List.map_nil, List.append_assoc]
    exact List.perm_middle
  | Data =>
    simp only [List.map_append, List.map_cons, List.map_nil]
    rw [← List.append_assoc]
    exact List.perm_append_singleton _ _

@[simp] theorem defineAll_nil (pass : SymbolPass) : pass.defineAll [] = pass := by
  obtain ⟨sect, index, offset, code, data, entry⟩ := pass
  cases sect <;> simp [SymbolPass.defineAll]

/-- Labels are defined one after the other. -/
theorem defineAll_define (pass : SymbolPass) (label : Str) (labels : List Str) :
    (pass.define label).defineAll labels = pass.defineAll (label :: labels) := by
  obtain ⟨sect, index, offset, code, data, entry⟩ := pass
  cases sect <;> simp [SymbolPass.defineAll, SymbolPass.define]

/-- A label that passes the check is new. -/
theorem requireUniqueSymbol_eq_ok {label : Str} {lineNumber : ℕ} {pass : SymbolPass} {u : Unit}
    (h : requireUniqueSymbol label lineNumber pass = .ok u) : label ∉ pass.names := by
  rw [requireUniqueSymbol, reject_eq_ok, lookup_isSome_iff, lookup_isSome_iff] at h
  rw [SymbolPass.names, List.map_append, List.mem_append]
  exact h

/-- The label loop of the symbol pass enters the labels of the line, all of them new, and leaves
the same text as the label loop of the emission pass. -/
theorem collectLabels_eq_ok {lineNumber fuel : ℕ} {line rest : Str} {pass pass' : SymbolPass}
    {had had' : Bool}
    (h : collectLabels lineNumber fuel line pass had = .ok (pass', had', rest))
    (hnodup : pass.names.Nodup) :
    rest = skipLabels fuel line ∧ pass' = pass.defineAll (labelsIn fuel line)
      ∧ pass'.names.Nodup := by
  induction fuel generalizing line pass had with
  | zero =>
    cases h
    exact ⟨rfl, (defineAll_nil _).symm, hnodup⟩
  | succ fuel ih =>
    rw [collectLabels] at h
    rw [skipLabels, labelsIn]
    rcases heq : tryConsumeLabel line with ⟨_ | label, line'⟩
    · rw [heq] at h
      cases h
      exact ⟨rfl, (defineAll_nil _).symm, hnodup⟩
    · rw [heq] at h
      simp only [bind_eq_ok] at h
      obtain ⟨_, -, _, hunique, h⟩ := h
      have hnew := requireUniqueSymbol_eq_ok hunique
      have hnodup' : (pass.define label).names.Nodup :=
        (names_define pass label).nodup_iff.mpr (List.nodup_cons.mpr ⟨hnew, hnodup⟩)
      obtain ⟨hrest, hpass, hn⟩ := ih h hnodup'
      exact ⟨hrest, hpass.trans (defineAll_define pass label _), hn⟩

/-- Line `k` is an instruction line when it is a statement of a text section. -/
theorem isInstructionLine_eq {lines : List Str} {k : ℕ} {text : Str} (h : lines[k]? = some text) :
    isInstructionLine lines k = (isStatement text && sectionAt lines k == .Text) := by
  rw [isInstructionLine, h]

/-- A line that is no statement contributes no data. -/
theorem dataLineBytes_of_not {lines : List Str} {k : ℕ} {text : Str} (h : lines[k]? = some text)
    (hn : (isStatement text && sectionAt lines k == .Data) = false) :
    dataLineBytes lines k = [] := by
  rw [dataLineBytes, h]
  simp only [hn, Bool.false_eq_true, if_false]

/-- The bytes of a line are those of its directive. -/
theorem dataLineBytes_of_parse {lines : List Str} {k : ℕ} {text : Str} {bytes : List UInt8}
    (h : lines[k]? = some text) (hs : isStatement text = true) (hd : sectionAt lines k = .Data)
    (hp : parseDataDirective (strippedLine text) (k + 1) = .ok bytes) :
    dataLineBytes lines k = bytes := by
  rw [dataLineBytes, h]
  simp only [hs, hd, hp, Bool.true_and, beq_self_eq_true, if_true]
  rfl

theorem isSectionDirective_nil : isSectionDirective [] = false := by decide

/-- A line that is no section directive stays in its section. -/
theorem sectionAfter_of_not {sect : AssemblySection} {text : Str}
    (h : isSectionDirective (strippedLine text) = false) : sectionAfter sect text = sect := by
  simp only [sectionAfter, h, Bool.false_eq_true, if_false]

/-- An empty line and a directive of the assembler are no statements. -/
theorem isStatement_eq_false {text : Str}
    (h : strippedLine text = [] ∨ isSectionDirective (strippedLine text) = true
      ∨ isEntryDirective (strippedLine text) = true) : isStatement text = false := by
  rcases h with h | h | h <;> simp [isStatement, h]

/-- A line that is no statement is no instruction line and contributes no data. -/
theorem quiet_of_not_statement {lines : List Str} {k : ℕ} {text : Str} (h : lines[k]? = some text)
    (hs : isStatement text = false) :
    isInstructionLine lines k = false ∧ dataLineBytes lines k = [] :=
  ⟨by rw [isInstructionLine_eq h, hs, Bool.false_and],
    dataLineBytes_of_not h (by rw [hs, Bool.false_and])⟩

/-- Every other line is a statement. -/
theorem isStatement_of_not {text : Str} (hnil : strippedLine text ≠ [])
    (hsec : ¬ isSectionDirective (strippedLine text) = true)
    (hentry : ¬ isEntryDirective (strippedLine text) = true) : isStatement text = true := by
  simp [isStatement, hnil, hsec, hentry]

/-- What the symbol pass does with the statement of line `k`. -/
theorem collectStatement_eq_ok {lines : List Str} {k : ℕ} {text : Str} {had : Bool}
    {pass pass' : SymbolPass} (hline : lines[k]? = some text)
    (hsect : pass.sect = sectionAt lines k) (hle : pass.dataOffset ≤ 512)
    (h : collectStatement (k + 1) had (strippedLine text) pass = .ok pass') :
    pass'.sect = sectionAfter (sectionAt lines k) text
      ∧ pass'.instructionIndex
        = pass.instructionIndex + (if isInstructionLine lines k then 1 else 0)
      ∧ pass'.dataOffset = pass.dataOffset + (dataLineBytes lines k).length
      ∧ pass'.dataOffset ≤ 512
      ∧ pass'.code_labels = pass.code_labels ∧ pass'.data_labels = pass.data_labels := by
  -- A line without a statement leaves both counters alone.
  have quiet := quiet_of_not_statement hline
  unfold collectStatement at h
  split_ifs at h with hnil hsec hentry hdata
  · obtain rfl := Except.ok.inj h
    obtain ⟨h1, h2⟩ := quiet (isStatement_eq_false (.inl hnil))
    rw [sectionAfter_of_not (by rw [hnil]; exact isSectionDirective_nil), h1, h2]
    exact ⟨hsect, by simp, by simp, hle, rfl, rfl⟩
  · simp only [bind_eq_ok] at h
    obtain ⟨_, -, heq⟩ := h
    obtain rfl := Except.ok.inj heq
    obtain ⟨h1, h2⟩ := quiet (isStatement_eq_false (.inr (.inl hsec)))
    rw [h1, h2]
    exact ⟨by simp only [sectionAfter, hsec, if_true], by simp, by simp, hle, rfl, rfl⟩
  · simp only [bind_eq_ok] at h
    obtain ⟨_, -, h⟩ := h
    obtain ⟨h1, h2⟩ := quiet (isStatement_eq_false (.inr (.inr hentry)))
    rw [sectionAfter_of_not (by simpa using hsec), h1, h2]
    split at h
    · cases h
    · simp only [bind_eq_ok] at h
      obtain ⟨label, -, heq⟩ := h
      obtain rfl := Except.ok.inj heq
      exact ⟨hsect, by simp, by simp, hle, rfl, rfl⟩
  · have hs := isStatement_of_not hnil hsec hentry
    simp only [bind_eq_ok, reject_eq_ok] at h
    obtain ⟨_, -, bytes, hparse, _, hfits, heq⟩ := h
    obtain rfl := Except.ok.inj heq
    rw [hsect] at hdata
    rw [sectionAfter_of_not (by simpa using hsec), isInstructionLine_eq hline, hdata,
      dataLineBytes_of_parse hline hs hdata hparse]
    simp only [kUserDataSize] at hfits
    exact ⟨hsect.trans hdata, by simp, rfl, by simp only; omega, rfl, rfl⟩
  · have hs := isStatement_of_not hnil hsec hentry
    simp only [bind_eq_ok] at h
    obtain ⟨_, -, heq⟩ := h
    obtain rfl := Except.ok.inj heq
    have htext : sectionAt lines k = .Text := by
      rw [← hsect]
      cases hp : pass.sect with
      | Text => rfl
      | Data => exact absurd hp hdata
    rw [sectionAfter_of_not (by simpa using hsec), isInstructionLine_eq hline, htext, hs,
      dataLineBytes_of_not hline (by rw [htext]; simp)]
    exact ⟨hsect.trans htext, by simp, by simp, hle, rfl, rfl⟩

/-- A label is defined on one of the first `k` lines, in the given section, at the given place. -/
def DefinedBefore (lines : List Str) (k : ℕ) (sect : AssemblySection) (place : ℕ → ℕ) (name : Str)
    (value : ℕ) : Prop :=
  ∃ j text, j < k ∧ lines[j]? = some text ∧ name ∈ labelsOf text ∧ sectionAt lines j = sect
    ∧ value = place j

/-- A label is defined after a line when it was before, or in that line. -/
theorem definedBefore_succ {lines : List Str} {k : ℕ} {sect : AssemblySection} {place : ℕ → ℕ}
    {text : Str} (hline : lines[k]? = some text) (name : Str) (value : ℕ) :
    DefinedBefore lines (k + 1) sect place name value
      ↔ DefinedBefore lines k sect place name value
        ∨ (name ∈ labelsOf text ∧ sectionAt lines k = sect ∧ value = place k) := by
  constructor
  · rintro ⟨j, t, hj, hl, h⟩
    rcases Nat.lt_succ_iff_lt_or_eq.mp hj with hj | rfl
    · exact .inl ⟨j, t, hj, hl, h⟩
    · rw [hline] at hl
      cases hl
      exact .inr h
  · rintro (⟨j, t, hj, h⟩ | h)
    · exact ⟨j, t, by omega, h⟩
    · exact ⟨k, text, by omega, hline, h⟩

/-- What the symbol pass knows after `k` lines. -/
structure SymbolInvariant (lines : List Str) (k : ℕ) (pass : SymbolPass) : Prop where
  sect : pass.sect = sectionAt lines k
  index : pass.instructionIndex = instructionsBefore lines k
  offset : pass.dataOffset = (dataBefore lines k).length
  offset_le : pass.dataOffset ≤ 512
  code : ∀ name value, (name, value) ∈ pass.code_labels
    ↔ DefinedBefore lines k .Text (instructionsBefore lines) name value
  data : ∀ name value, (name, value) ∈ pass.data_labels
    ↔ DefinedBefore lines k .Data (fun j => (dataBefore lines j).length) name value
  nodup : pass.names.Nodup

/-- Before the first line nothing is defined. -/
theorem SymbolInvariant.init (lines : List Str) : SymbolInvariant lines 0 {} where
  sect := rfl
  index := rfl
  offset := rfl
  offset_le := Nat.zero_le _
  code name value := by simp [DefinedBefore]
  data name value := by simp [DefinedBefore]
  nodup := List.nodup_nil

/-- The code labels after some are defined. -/
theorem mem_code_defineAll (pass : SymbolPass) (labels : List Str) (name : Str) (value : ℕ) :
    (name, value) ∈ (pass.defineAll labels).code_labels
      ↔ (name, value) ∈ pass.code_labels
        ∨ (name ∈ labels ∧ pass.sect = .Text ∧ value = pass.instructionIndex) := by
  unfold SymbolPass.defineAll
  split <;> rename_i hs
  · simp only [List.mem_append, List.mem_map, Prod.mk.injEq, hs, true_and]
    refine or_congr_right ⟨?_, ?_⟩
    · rintro ⟨l, hl, rfl, rfl⟩
      exact ⟨hl, rfl⟩
    · rintro ⟨hl, rfl⟩
      exact ⟨name, hl, rfl, rfl⟩
  · simp [hs]

/-- The data labels after some are defined. -/
theorem mem_data_defineAll (pass : SymbolPass) (labels : List Str) (name : Str) (value : ℕ) :
    (name, value) ∈ (pass.defineAll labels).data_labels
      ↔ (name, value) ∈ pass.data_labels
        ∨ (name ∈ labels ∧ pass.sect = .Data ∧ value = pass.dataOffset) := by
  unfold SymbolPass.defineAll
  split <;> rename_i hs
  · simp [hs]
  · simp only [List.mem_append, List.mem_map, Prod.mk.injEq, hs, true_and, kUserDataBase,
      Nat.zero_add]
    refine or_congr_right ⟨?_, ?_⟩
    · rintro ⟨l, hl, rfl, rfl⟩
      exact ⟨hl, rfl⟩
    · rintro ⟨hl, rfl⟩
      exact ⟨name, hl, rfl, rfl⟩

/-- Defining labels moves nothing. -/
theorem defineAll_fields (pass : SymbolPass) (labels : List Str) :
    (pass.defineAll labels).sect = pass.sect
      ∧ (pass.defineAll labels).instructionIndex = pass.instructionIndex
      ∧ (pass.defineAll labels).dataOffset = pass.dataOffset := by
  unfold SymbolPass.defineAll
  split <;> exact ⟨rfl, rfl, rfl⟩

/-- One line of the symbol pass keeps its invariant. -/
theorem SymbolInvariant.step {lines : List Str} {k : ℕ} {text : Str} {pass pass' : SymbolPass}
    (hline : lines[k]? = some text) (inv : SymbolInvariant lines k pass)
    (h : collectLine (k + 1) text pass = .ok pass') : SymbolInvariant lines (k + 1) pass' := by
  simp only [collectLine, bind_eq_ok] at h
  obtain ⟨⟨mid, had, rest⟩, hlabels, hstatement⟩ := h
  obtain ⟨hrest, hmid, hnodup⟩ := collectLabels_eq_ok hlabels inv.nodup
  change mid = pass.defineAll (labelsOf text) at hmid
  obtain ⟨hsect, hindex, hoffset⟩ := defineAll_fields pass (labelsOf text)
  rw [← hmid] at hsect hindex hoffset
  have hle : mid.dataOffset ≤ 512 := hoffset ▸ inv.offset_le
  rw [hrest] at hstatement
  obtain ⟨h1, h2, h3, h4, h5, h6⟩ :=
    collectStatement_eq_ok hline (hsect.trans inv.sect) hle hstatement
  -- Labels first, at the place before the line, then the statement moves the place on.
  refine ⟨?_, ?_, ?_, h4, ?_, ?_, ?_⟩
  · rw [h1, sectionAt_succ hline]
  · rw [h2, hindex, inv.index, instructionsBefore_succ]
  · rw [h3, hoffset, inv.offset, dataBefore_succ, List.length_append]
  · intro name value
    rw [h5, hmid, mem_code_defineAll, inv.code, definedBefore_succ hline, inv.sect, inv.index]
  · intro name value
    rw [h6, hmid, mem_data_defineAll, inv.data, definedBefore_succ hline, inv.sect, inv.offset]
  · rw [SymbolPass.names, h5, h6]
    exact hnodup

/-- The whole symbol pass keeps its invariant. -/
theorem SymbolInvariant.run {lines : List Str} {k : ℕ} {pass pass' : SymbolPass}
    (inv : SymbolInvariant lines k pass) (hk : k ≤ lines.length)
    (h : collectLines k (lines.drop k) pass = .ok pass') :
    SymbolInvariant lines lines.length pass' := by
  induction hd : lines.drop k generalizing k pass with
  | nil =>
    rw [hd] at h
    cases h
    have : k = lines.length := Nat.le_antisymm hk (List.drop_eq_nil_iff.mp hd)
    exact this ▸ inv
  | cons text rest ih =>
    have hline : lines[k]? = some text := by
      rw [← List.head?_drop, hd, List.head?_cons]
    have hrest : lines.drop (k + 1) = rest := by
      rw [← List.drop_drop, hd, List.drop_one, List.tail_cons]
    have hlt : k < lines.length := (List.getElem?_eq_some_iff.mp hline).1
    rw [hd, collectLines] at h
    simp only [bind_eq_ok] at h
    obtain ⟨mid, hmid, h⟩ := h
    exact ih (inv.step hline hmid) hlt (hrest ▸ h) hrest

/-! ## The emission pass -/

/-- What the emission pass knows after `k` lines. -/
structure EmitInvariant (lines : List Str) (dataLabels : LabelTable) (k : ℕ) (pass : EmitPass) :
    Prop where
  sect : pass.sect = sectionAt lines k
  data : pass.data = dataBefore lines k
  source_lines : pass.instruction_source_lines
    = ((List.range k).filter (isInstructionLine lines)).map (· + 1)
  parsed : List.Forall₂ (fun n instruction => ∃ text, lines[n - 1]? = some text
      ∧ parseInstructionLine (strippedLine text) n dataLabels = .ok instruction)
    pass.instruction_source_lines pass.instructions

/-- Before the first line nothing is emitted. -/
theorem EmitInvariant.init (lines : List Str) (dataLabels : LabelTable) :
    EmitInvariant lines dataLabels 0 {} where
  sect := rfl
  data := rfl
  source_lines := rfl
  parsed := .nil

/-- The source lines after line `k`. -/
theorem EmitInvariant.source_lines_succ {lines : List Str} {dataLabels : LabelTable} {k : ℕ}
    {pass : EmitPass} (inv : EmitInvariant lines dataLabels k pass) :
    ((List.range (k + 1)).filter (isInstructionLine lines)).map (· + 1)
      = pass.instruction_source_lines ++ if isInstructionLine lines k then [k + 1] else [] := by
  rw [List.range_succ, List.filter_append, List.map_append, ← inv.source_lines]
  cases hb : isInstructionLine lines k <;> simp [hb]

/-- A line that is no statement emits nothing. -/
theorem EmitInvariant.quiet {lines : List Str} {dataLabels : LabelTable} {k : ℕ} {text : Str}
    {pass : EmitPass} (hline : lines[k]? = some text) (inv : EmitInvariant lines dataLabels k pass)
    (hs : isStatement text = false) :
    EmitInvariant lines dataLabels (k + 1)
      { pass with sect := sectionAfter (sectionAt lines k) text } := by
  obtain ⟨h1, h2⟩ := quiet_of_not_statement hline hs
  exact {
    sect := by rw [sectionAt_succ hline]
    data := by rw [dataBefore_succ, h2, List.append_nil, inv.data]
    source_lines := by rw [inv.source_lines_succ, h1]; simp
    parsed := inv.parsed }

/-- One line of the emission pass keeps its invariant. -/
theorem EmitInvariant.step {lines : List Str} {dataLabels : LabelTable} {k : ℕ} {text : Str}
    {pass pass' : EmitPass} (hline : lines[k]? = some text)
    (inv : EmitInvariant lines dataLabels k pass)
    (h : emitLine dataLabels (k + 1) text pass = .ok pass') :
    EmitInvariant lines dataLabels (k + 1) pass' := by
  have hsame : isSectionDirective (strippedLine text) = false →
      { pass with sect := sectionAfter (sectionAt lines k) text } = pass := by
    intro hsec
    rw [sectionAfter_of_not hsec, ← inv.sect]
  change emitStatement dataLabels (k + 1) (strippedLine text) pass = .ok pass' at h
  unfold emitStatement at h
  -- In the order of the branches: nothing left, a section, an entry, data, an instruction. Only the
  -- last two emit.
  split_ifs at h with hnil hsec hentry hdata
  · obtain rfl := Except.ok.inj h
    have hquiet := inv.quiet hline (isStatement_eq_false (.inl hnil))
    rwa [hsame (by rw [hnil]; exact isSectionDirective_nil)] at hquiet
  · obtain rfl := Except.ok.inj h
    have hquiet := inv.quiet hline (isStatement_eq_false (.inr (.inl hsec)))
    rwa [sectionAfter, if_pos hsec] at hquiet
  · obtain rfl := Except.ok.inj h
    have hquiet := inv.quiet hline (isStatement_eq_false (.inr (.inr hentry)))
    rwa [hsame (by simpa using hsec)] at hquiet
  · have hs := isStatement_of_not hnil hsec hentry
    simp only [bind_eq_ok] at h
    obtain ⟨bytes, hparse, heq⟩ := h
    obtain rfl := Except.ok.inj heq
    rw [inv.sect] at hdata
    refine ⟨?_, ?_, ?_, inv.parsed⟩
    · rw [sectionAt_succ hline, sectionAfter_of_not (by simpa using hsec)]
      exact inv.sect
    · rw [dataBefore_succ, dataLineBytes_of_parse hline hs hdata hparse, ← inv.data]
    · rw [inv.source_lines_succ, isInstructionLine_eq hline, hdata]
      simp
  · have hs := isStatement_of_not hnil hsec hentry
    simp only [bind_eq_ok] at h
    obtain ⟨instruction, hparse, heq⟩ := h
    obtain rfl := Except.ok.inj heq
    have htext : sectionAt lines k = .Text := by
      rw [← inv.sect]
      cases hp : pass.sect with
      | Text => rfl
      | Data => exact absurd hp hdata
    refine ⟨?_, ?_, ?_, ?_⟩
    · rw [sectionAt_succ hline, sectionAfter_of_not (by simpa using hsec)]
      exact inv.sect
    · rw [dataBefore_succ, dataLineBytes_of_not hline (by rw [htext]; simp), List.append_nil]
      exact inv.data
    · rw [inv.source_lines_succ, isInstructionLine_eq hline, htext, hs]
      rfl
    · exact List.rel_append inv.parsed (.cons ⟨text, hline, hparse⟩ .nil)

/-- The whole emission pass keeps its invariant. -/
theorem EmitInvariant.run {lines : List Str} {dataLabels : LabelTable} {k : ℕ}
    {pass pass' : EmitPass} (inv : EmitInvariant lines dataLabels k pass) (hk : k ≤ lines.length)
    (h : emitLines dataLabels k (lines.drop k) pass = .ok pass') :
    EmitInvariant lines dataLabels lines.length pass' := by
  induction hd : lines.drop k generalizing k pass with
  | nil =>
    rw [hd] at h
    cases h
    have : k = lines.length := Nat.le_antisymm hk (List.drop_eq_nil_iff.mp hd)
    exact this ▸ inv
  | cons text rest ih =>
    have hline : lines[k]? = some text := by
      rw [← List.head?_drop, hd, List.head?_cons]
    have hrest : lines.drop (k + 1) = rest := by
      rw [← List.drop_drop, hd, List.drop_one, List.tail_cons]
    have hlt : k < lines.length := (List.getElem?_eq_some_iff.mp hline).1
    rw [hd, emitLines] at h
    simp only [bind_eq_ok] at h
    obtain ⟨mid, hmid, h⟩ := h
    exact ih (inv.step hline hmid) hlt (hrest ▸ h) hrest

/-! ## Both passes together -/

/-- With distinct names, looking a name up finds exactly its entry. -/
theorem lookup_eq_some_iff {table : LabelTable} (h : (table.map Prod.fst).Nodup) {name : Str}
    {value : ℕ} : table.lookup name = some value ↔ (name, value) ∈ table := by
  induction table with
  | nil => simp
  | cons entry rest ih =>
    obtain ⟨key, v⟩ := entry
    rw [List.map_cons, List.nodup_cons] at h
    rw [List.lookup_cons]
    by_cases hk : name = key
    · subst hk
      have hnot : (name, value) ∉ rest := fun hm => h.1 (List.mem_map.mpr ⟨_, hm, rfl⟩)
      simp [hnot, eq_comm]
    · have hne : (name == key) = false := by simpa using hk
      rw [hne]
      simp only [ih h.2, List.mem_cons, Prod.mk.injEq, hk, false_and, false_or]

/-- How an assembled program relates to its source lines and to the counters of the symbol pass. -/
structure PassesAgree (lines : List Str) (symbols : SymbolPass) (program : AssembledProgram) :
    Prop where
  instruction_count : symbols.instructionIndex = program.instructions.length
  code_label : ∀ name index, program.labels.lookup name = some index
    ↔ ∃ k text, lines[k]? = some text ∧ name ∈ labelsOf text ∧ sectionAt lines k = .Text
      ∧ index = instructionsBefore lines k
  data_label : ∀ name address, program.data_labels.lookup name = some address
    ↔ ∃ k text, lines[k]? = some text ∧ name ∈ labelsOf text ∧ sectionAt lines k = .Data
      ∧ address = program.data_base + (dataBefore lines k).length
  names_distinct : ((program.labels ++ program.data_labels).map Prod.fst).Nodup
  data : program.data = dataBefore lines lines.length
  data_size : symbols.dataOffset = program.data.length
  data_le : program.data.length ≤ 512
  source_lines_length : program.instruction_source_lines.length = program.instructions.length
  source_lines_increasing : program.instruction_source_lines.Pairwise (· < ·)
  source_line : ∀ (i n : ℕ) (instruction : Instruction), program.instruction_source_lines[i]? = some n →
    program.instructions[i]? = some instruction →
    1 ≤ n ∧ ∃ text, lines[n - 1]? = some text
      ∧ parseInstructionLine (strippedLine text) n program.data_labels = .ok instruction
  entry : program.has_explicit_entry = true →
    program.labels.lookup program.entry_label = some program.entry_instruction

/-- After the last line every label is defined where it stands. -/
theorem definedBefore_length {lines : List Str} {sect : AssemblySection} {place : ℕ → ℕ}
    {name : Str} {value : ℕ} : DefinedBefore lines lines.length sect place name value
      ↔ ∃ k text, lines[k]? = some text ∧ name ∈ labelsOf text ∧ sectionAt lines k = sect
        ∧ value = place k := by
  constructor
  · rintro ⟨k, text, -, h⟩
    exact ⟨k, text, h⟩
  · rintro ⟨k, text, hline, h⟩
    exact ⟨k, text, (List.getElem?_eq_some_iff.mp hline).1, hline, h⟩

/-- The fields of a symbol pass that `resolveEntry` hands on. -/
theorem resolveEntry_eq_ok {pass : SymbolPass} {symbols : SymbolPassResult}
    (h : resolveEntry pass = .ok symbols) :
    symbols.code_labels = pass.code_labels ∧ symbols.data_labels = pass.data_labels
      ∧ symbols.data_size = pass.dataOffset
      ∧ (symbols.has_entry = true →
        pass.code_labels.lookup symbols.entry_label = some symbols.entry_instruction)
      ∧ (symbols.has_entry = false → symbols.entry_instruction = 0) := by
  unfold resolveEntry at h
  split at h
  · obtain rfl := Except.ok.inj h
    exact ⟨rfl, rfl, rfl, fun hentry => Bool.noConfusion hentry, fun _ => rfl⟩
  · rename_i label line hentry
    simp only [bind_eq_ok] at h
    obtain ⟨_, -, h⟩ := h
    split at h
    · cases h
    · rename_i index hlookup
      obtain rfl := Except.ok.inj h
      exact ⟨rfl, rfl, rfl, fun _ => hlookup, fun hentry => Bool.noConfusion hentry⟩

/-- An accepted source text went through both passes with their invariants. -/
theorem assembleString_eq_ok {source : Str} {program : AssembledProgram}
    (h : assembleString source = .ok program) :
    ∃ symbols result emitted, collectLines 0 (splitLines source) {} = .ok symbols
      ∧ resolveEntry symbols = .ok result
      ∧ SymbolInvariant (splitLines source) (splitLines source).length symbols
      ∧ EmitInvariant (splitLines source) result.data_labels (splitLines source).length emitted
      ∧ program = {
        instructions := emitted.instructions
        instruction_source_lines := emitted.instruction_source_lines
        labels := result.code_labels
        data_labels := result.data_labels
        data_base := kUserDataBase
        data := emitted.data
        has_explicit_entry := result.has_entry
        entry_label := result.entry_label
        entry_instruction := result.entry_instruction } := by
  simp only [assembleString, collectSymbols, emitProgram, bind_eq_ok] at h
  obtain ⟨result, ⟨symbols, hcollect, hresolve⟩, emitted, hemit, heq⟩ := h
  exact ⟨symbols, result, emitted, hcollect, hresolve,
    (SymbolInvariant.init (splitLines source)).run (Nat.zero_le _) hcollect,
    (EmitInvariant.init (splitLines source) result.data_labels).run (Nat.zero_le _) hemit,
    (Except.ok.inj heq).symm⟩

/-- The two passes agree on every source text the assembler accepts. -/
theorem assembler_passes_agree (source : Str) (program : AssembledProgram)
    (h : assembleString source = .ok program) :
    ∃ symbols, collectLines 0 (splitLines source) {} = .ok symbols
      ∧ PassesAgree (splitLines source) symbols program := by
  obtain ⟨symbols, result, emitted, hcollect, hresolve, inv, einv, rfl⟩ := assembleString_eq_ok h
  obtain ⟨hcode, hdata, -, hentry, -⟩ := resolveEntry_eq_ok hresolve
  have hnames : ((symbols.code_labels ++ symbols.data_labels).map Prod.fst).Nodup := inv.nodup
  rw [List.map_append, List.nodup_append] at hnames
  refine ⟨symbols, hcollect, ?_⟩
  -- The emission pass emits an instruction at exactly the lines the symbol pass counted.
  have hcount : emitted.instructions.length = instructionsBefore (splitLines source)
      (splitLines source).length := by
    rw [← einv.parsed.length_eq, einv.source_lines, List.length_map, ← List.countP_eq_length_filter]
    rfl
  exact {
    instruction_count := by rw [inv.index, hcount]
    code_label := by
      intro name index
      rw [hcode, lookup_eq_some_iff hnames.1, inv.code, definedBefore_length]
    data_label := by
      intro name address
      rw [hdata, lookup_eq_some_iff hnames.2.1, inv.data, definedBefore_length]
      simp only [kUserDataBase, Nat.zero_add]
    names_distinct := by
      rw [hcode, hdata]
      exact inv.nodup
    data := einv.data
    data_size := by rw [inv.offset, einv.data]
    data_le := by
      rw [einv.data, ← inv.offset]
      exact inv.offset_le
    source_lines_length := einv.parsed.length_eq
    source_lines_increasing := by
      rw [einv.source_lines, List.pairwise_map]
      refine List.Pairwise.imp ?_ (List.Pairwise.filter _ List.pairwise_lt_range)
      intro a b hab
      omega
    source_line := by
      intro i n instruction hn hi
      have hparsed := List.forall₂_iff_get.mp einv.parsed
      have hmem : n ∈ emitted.instruction_source_lines := List.mem_of_getElem? hn
      rw [einv.source_lines, List.mem_map] at hmem
      obtain ⟨j, -, hj⟩ := hmem
      refine ⟨by omega, ?_⟩
      obtain ⟨hlt, rfl⟩ := List.getElem?_eq_some_iff.mp hn
      obtain ⟨hlt', rfl⟩ := List.getElem?_eq_some_iff.mp hi
      exact hparsed.2 i hlt hlt'
    entry := by
      intro hhas
      rw [hcode]
      exact hentry hhas }

/-- A text with both sections, a comment holding a colon and a string holding both separators. -/
def sampleSource : Str := Str.ofString
  ".entry main\n.data\nmsg: .string \"a;b:c\" ; x: y\nend:\n.text\nmain: loop: MOV R0, [end]\nJMP loop\n"

/-- A program with both sections and a forward reference. -/
theorem assembler_passes_agree_sample :
    ∃ program, assembleString sampleSource = .ok program ∧ program.instructions.length = 2
      ∧ program.entry_instruction = 0 ∧ program.data_labels.lookup (Str.ofString "end") = some 5
      ∧ ∃ symbols, PassesAgree (splitLines sampleSource) symbols program := by
  have hrun : ((assembleString sampleSource).toOption.map fun program =>
      (program.instructions.length, program.entry_instruction,
        program.data_labels.lookup (Str.ofString "end"))) = some (2, 0, some 5) := by
    decide +kernel
  obtain ⟨program, h⟩ : ∃ program, assembleString sampleSource = .ok program := by
    cases ha : assembleString sampleSource with
    | ok program => exact ⟨program, rfl⟩
    | error e => rw [ha] at hrun; simp [Except.toOption] at hrun
  rw [h] at hrun
  simp only [Except.toOption, Option.map_some, Option.some.injEq, Prod.mk.injEq] at hrun
  obtain ⟨symbols, -, hagree⟩ := assembler_passes_agree sampleSource program h
  exact ⟨program, h, hrun.1, hrun.2.1, hrun.2.2, symbols, hagree⟩

end ZeroCpu.Assembler
