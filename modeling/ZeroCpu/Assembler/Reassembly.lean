import ZeroCpu.Assembler.Assembler
import ZeroCpu.Assembler.Spelling

/-!
# Sources made of printed instructions

Reference: `src/assembler/Assembler.cpp` (`collectSymbols`, `emitProgram`).

Both passes over a source whose lines are blank or spell an instruction: the program has these
instructions and nothing else.
-/

namespace ZeroCpu.Assembler

open Library Binary
open CPU (Traceable)

/-! ## One line -/

/-- The line spells the instruction, between two blanks. -/
def SpellsLine (line : Str) (instruction : Instruction) : Prop :=
  ∃ before core after, Blank before ∧ Blank after ∧ SpellsInstruction core instruction
    ∧ line = before ++ core ++ after

/-- What both passes see of a line that spells an instruction. -/
structure InstructionText (line : Str) (instruction : Instruction) : Prop where
  unlabeled : tryConsumeLabel line = (none, line)
  ne_nil : line ≠ []
  not_section : isSectionDirective line = false
  not_entry : isEntryDirective line = false
  not_directive : line.head? ≠ some '.'
  parse : ∀ lineNumber labels, parseInstructionLine line lineNumber labels = .ok instruction

theorem unquoted_of_blank {text : Str} (h : Blank text) : Unquoted text :=
  fun _ hch => ⟨ne_of_space (h _ hch) (by decide), ne_of_space (h _ hch) (by decide)⟩

theorem removeComment_unquoted {text : Str} (h : Unquoted text) : removeComment text = text := by
  have := removeCommentFrom_unquoted h false []
  rwa [List.append_nil, removeCommentFrom, List.append_nil] at this

/-- A line without a colon has no label. -/
theorem tryConsumeLabel_of_no_colon {line : Str} (ht : Trimmed line) (h : ':'.toUInt8 ∉ line) :
    tryConsumeLabel line = (none, line) := by
  have hspan : line.span (fun (ch : UInt8) => ch != ':') = (line, []) := by
    have hall : ∀ ch ∈ line, (ch != ':'.toUInt8) = true := fun ch hch =>
      bne_iff_ne.mpr fun heq => h (heq ▸ hch)
    rw [List.span_eq_takeWhile_dropWhile, List.takeWhile_eq_self_iff.mpr hall,
      List.dropWhile_eq_nil_iff.mpr hall]
  unfold tryConsumeLabel
  rw [trim_of_trimmed ht]
  dsimp only
  rw [hspan]

/-- A line that starts with a letter is no directive. -/
theorem not_directive_of_alpha {ch : UInt8} {rest : Str} (hch : isAlpha ch = true)
    (ht : Trimmed (ch :: rest)) :
    isSectionDirective (ch :: rest) = false ∧ isEntryDirective (ch :: rest) = false
      ∧ (ch :: rest).head? ≠ some '.' := by
  have hletter : ∀ ch, isAlpha ch = true →
      toLower ch ≠ '.'.toUInt8 ∧ isSpace ch = false ∧ ch ≠ '.'.toUInt8 :=
    forall_byte (by decide +kernel)
  obtain ⟨hlower, hspace, hdot⟩ := hletter ch hch
  have hname : ∀ tail name : Str, (lowerCopy (ch :: tail) == '.'.toUInt8 :: name) = false :=
    fun tail name => by
      rw [beq_eq_false_iff_ne]
      exact fun heq => hlower (List.cons.inj heq).1
  have htoken : ∃ tail, (nextToken (ch :: rest)).1 = ch :: tail := by
    refine ⟨rest.takeWhile fun ch => !isSpace ch, ?_⟩
    rw [nextToken, List.dropWhile_cons, hspace, if_neg Bool.false_ne_true,
      List.span_eq_takeWhile_dropWhile, List.takeWhile_cons, hspace]
    rfl
  refine ⟨?_, ?_, fun heq => hdot (Option.some.inj heq)⟩
  · unfold isSectionDirective
    rw [trim_of_trimmed ht]
    exact Bool.or_eq_false_iff.mpr ⟨hname _ _, hname _ _⟩
  · obtain ⟨tail, htail⟩ := htoken
    unfold isEntryDirective
    rw [trim_of_trimmed ht, htail]
    exact hname _ _

/-- The spelling of an instruction is a text of it. -/
theorem SpellsInstruction.instructionText {core : Str} {instruction : Instruction}
    (h : SpellsInstruction core instruction) : InstructionText core instruction := by
  have ht := h.trimmed
  have hunlabeled := tryConsumeLabel_of_no_colon ht h.plain.2.2
  have hne := h.ne_nil
  have hparse := h.parseInstructionLine_eq
  obtain ⟨ch, rest, rfl, hch⟩ := h.head
  obtain ⟨hsection, hentry, hdirective⟩ := not_directive_of_alpha hch ht
  exact ⟨hunlabeled, hne, hsection, hentry, hdirective, hparse⟩

/-- What is left of a line without its comment. -/
theorem SpellsLine.stripped {line : Str} {instruction : Instruction}
    (h : SpellsLine line instruction) : InstructionText (trim (removeComment line)) instruction := by
  obtain ⟨before, core, after, hbefore, hafter, hcore, rfl⟩ := h
  have hunquoted := ((unquoted_of_blank hbefore).append hcore.plain.2.1).append
    (unquoted_of_blank hafter)
  rw [removeComment_unquoted hunquoted, trim_surrounded hbefore hcore.trimmed hafter]
  exact hcore.instructionText

theorem stripped_blank {line : Str} (h : Blank line) : trim (removeComment line) = [] := by
  rw [removeComment_unquoted (unquoted_of_blank h), trim_blank h]

/-! ## The passes on one line -/

/-- The first pass skips a blank line. -/
theorem collectLine_blank {line : Str} (h : Blank line) (lineNumber : ℕ) (pass : SymbolPass) :
    collectLine lineNumber line pass = .ok pass := by
  unfold collectLine
  rw [stripped_blank h]
  rfl

/-- The first pass counts an instruction. -/
theorem collectLine_instruction {line : Str} {instruction : Instruction}
    (h : SpellsLine line instruction) (lineNumber : ℕ) {pass : SymbolPass}
    (hsect : pass.sect = .Text) :
    collectLine lineNumber line pass
      = .ok { pass with instructionIndex := pass.instructionIndex + 1 } := by
  obtain ⟨hlabel, hne, hsection, hentry, hdirective, -⟩ := h.stripped
  unfold collectLine
  dsimp only
  rw [collectLabels, hlabel]
  dsimp only
  rw [ok_bind]
  dsimp only
  rw [collectStatement, if_neg hne, hsection, if_neg Bool.false_ne_true, hentry,
    if_neg Bool.false_ne_true, if_neg (by rw [hsect]; decide), reject_of_not hdirective]
  rfl

/-- The second pass skips a blank line. -/
theorem emitLine_blank {line : Str} (h : Blank line) (labels : LabelTable) (lineNumber : ℕ)
    (pass : EmitPass) : emitLine labels lineNumber line pass = .ok pass := by
  unfold emitLine
  rw [stripped_blank h]
  rfl

/-- The second pass appends an instruction. -/
theorem emitLine_instruction {line : Str} {instruction : Instruction}
    (h : SpellsLine line instruction) (labels : LabelTable) (lineNumber : ℕ) {pass : EmitPass}
    (hsect : pass.sect = .Text) :
    emitLine labels lineNumber line pass = .ok { pass with
      instructions := pass.instructions ++ [instruction]
      instruction_source_lines := pass.instruction_source_lines ++ [lineNumber] } := by
  obtain ⟨hlabel, hne, hsection, hentry, -, hparse⟩ := h.stripped
  unfold emitLine
  dsimp only
  rw [skipLabels, hlabel]
  dsimp only
  rw [emitStatement, if_neg hne, hsection, if_neg Bool.false_ne_true, hentry,
    if_neg Bool.false_ne_true, if_neg (by rw [hsect]; decide), hparse]
  rfl

/-! ## The passes on all lines -/

/-- The lines are blank or spell the instructions in their order. -/
inductive SpellsLines : List Str → List Instruction → Prop
  | nil : SpellsLines [] []
  | blank {line : Str} {lines : List Str} {instructions : List Instruction} (h : Blank line)
      (rest : SpellsLines lines instructions) : SpellsLines (line :: lines) instructions
  | instruction {line : Str} {lines : List Str} {instruction : Instruction}
      {instructions : List Instruction} (h : SpellsLine line instruction)
      (rest : SpellsLines lines instructions) :
      SpellsLines (line :: lines) (instruction :: instructions)

/-- The first pass counts the instructions of the lines. -/
theorem SpellsLines.collectLines {lines : List Str} {instructions : List Instruction}
    (h : SpellsLines lines instructions) (index : ℕ) {pass : SymbolPass}
    (hsect : pass.sect = .Text) :
    collectLines index lines pass
      = .ok { pass with instructionIndex := pass.instructionIndex + instructions.length } := by
  induction h generalizing index pass with
  | nil => rfl
  | blank h _ ih =>
    rw [Assembler.collectLines, collectLine_blank h, ok_bind]
    exact ih _ hsect
  | @instruction _ _ _ instructions h _ ih =>
    rw [Assembler.collectLines, collectLine_instruction h _ hsect, ok_bind,
      @ih (index + 1) { pass with instructionIndex := pass.instructionIndex + 1 } hsect,
      List.length_cons]
    dsimp only
    rw [Nat.add_right_comm, Nat.add_assoc]

/-- The second pass appends the instructions of the lines. -/
theorem SpellsLines.emitLines {lines : List Str} {instructions : List Instruction}
    (h : SpellsLines lines instructions) (labels : LabelTable) (index : ℕ) {pass : EmitPass}
    (hsect : pass.sect = .Text) :
    ∃ sourceLines, emitLines labels index lines pass = .ok { pass with
      instructions := pass.instructions ++ instructions
      instruction_source_lines := sourceLines } := by
  induction h generalizing index pass with
  | nil => exact ⟨pass.instruction_source_lines, by rw [List.append_nil]; rfl⟩
  | blank h _ ih =>
    rw [Assembler.emitLines, emitLine_blank h, ok_bind]
    exact ih _ hsect
  | @instruction _ _ instruction instructions h _ ih =>
    rw [Assembler.emitLines, emitLine_instruction h labels _ hsect, ok_bind]
    obtain ⟨sourceLines, hrest⟩ := @ih (index + 1) { pass with
      instructions := pass.instructions ++ [instruction]
      instruction_source_lines := pass.instruction_source_lines ++ [index + 1] } hsect
    refine ⟨sourceLines, hrest.trans ?_⟩
    rw [List.append_assoc, List.singleton_append]

/-- A source of spelled instructions assembles to them, without data, labels or an entry. -/
theorem assembleString_of_spells {source : Str} {instructions : List Instruction}
    (h : SpellsLines (splitLines source) instructions) :
    ∃ program, assembleString source = .ok program ∧ program.instructions = instructions
      ∧ program.data = [] ∧ program.labels = [] := by
  obtain ⟨sourceLines, hemit⟩ := @SpellsLines.emitLines _ _ h [] 0 {} rfl
  unfold assembleString collectSymbols
  dsimp only
  rw [h.collectLines 0 rfl, ok_bind, resolveEntry]
  dsimp only
  rw [ok_bind, emitProgram, hemit, ok_bind]
  exact ⟨_, rfl, rfl, rfl, rfl⟩

/-! ## The lines of a source -/

/-- White space at the end of a line does not matter. -/
theorem SpellsLine.append_blank {line after : Str} {instruction : Instruction}
    (h : SpellsLine line instruction) (hafter : Blank after) :
    SpellsLine (line ++ after) instruction := by
  obtain ⟨front, core, back, hfront, hback, hcore, rfl⟩ := h
  exact ⟨front, core, back ++ after, hfront, hback.append hafter, hcore, List.append_assoc _ _ _⟩

/-- Blank lines spell no instruction. -/
theorem spellsLines_blank {current text : Str} (hcurrent : Blank current) (h : Blank text) :
    SpellsLines (splitLinesFrom current text) [] := by
  induction text generalizing current with
  | nil =>
    rw [splitLinesFrom]
    split
    · exact .nil
    · exact .blank hcurrent .nil
  | cons ch text ih =>
    obtain ⟨hch, htext⟩ := List.forall_mem_cons.mp h
    rw [splitLinesFrom]
    split
    · exact .blank hcurrent (ih .nil htext)
    · exact ih (hcurrent.append (List.forall_mem_singleton.mpr hch)) htext

/-- White space behind a line that spells an instruction. -/
theorem spellsLines_append_blank {current after : Str} {instruction : Instruction}
    (hcurrent : SpellsLine current instruction) (h : Blank after) :
    SpellsLines (splitLinesFrom current after) [instruction] := by
  induction after generalizing current with
  | nil =>
    rw [splitLinesFrom, if_neg]
    · exact .instruction hcurrent .nil
    · obtain ⟨front, core, back, -, -, hcore, rfl⟩ := hcurrent
      rw [List.append_assoc]
      exact List.append_ne_nil_of_right_ne_nil _ (List.append_ne_nil_of_left_ne_nil hcore.ne_nil _)
  | cons ch after ih =>
    obtain ⟨hch, hafter⟩ := List.forall_mem_cons.mp h
    rw [splitLinesFrom]
    split
    · exact .instruction hcurrent (spellsLines_blank .nil hafter)
    · exact ih (hcurrent.append_blank (List.forall_mem_singleton.mpr hch)) hafter

/-- White space ahead of a source. -/
theorem spellsLines_blank_append {current before rest : Str} {instructions : List Instruction}
    (hcurrent : Blank current) (h : Blank before)
    (hrest : ∀ current, Blank current → SpellsLines (splitLinesFrom current rest) instructions) :
    SpellsLines (splitLinesFrom current (before ++ rest)) instructions := by
  induction before generalizing current with
  | nil => exact hrest current hcurrent
  | cons ch before ih =>
    obtain ⟨hch, hbefore⟩ := List.forall_mem_cons.mp h
    rw [List.cons_append, splitLinesFrom]
    split
    · exact .blank hcurrent (ih .nil hbefore)
    · exact ih (hcurrent.append (List.forall_mem_singleton.mpr hch)) hbefore

/-- A spelled instruction between any white space is a source of its own. -/
theorem spellsLines_surrounded {before core after : Str} {instruction : Instruction}
    (hbefore : Blank before) (hafter : Blank after) (hcore : SpellsInstruction core instruction) :
    SpellsLines (splitLines (before ++ core ++ after)) [instruction] := by
  rw [splitLines, List.append_assoc]
  refine spellsLines_blank_append .nil hbefore fun current hcurrent => ?_
  rw [splitLinesFrom_append hcore.plain.1]
  refine spellsLines_append_blank ⟨current, core, [], hcurrent, .nil, hcore, ?_⟩ hafter
  rw [List.append_nil]

/-- Spelled instructions on lines of their own. -/
theorem spellsLines_intercalate {lines : List Str} {instructions : List Instruction}
    (h : List.Forall₂ SpellsInstruction lines instructions) :
    SpellsLines (splitLines ([10].intercalate lines)) instructions := by
  induction h with
  | nil => exact .nil
  | @cons line instruction lines instructions hline hlines ih =>
    have hspells : SpellsLine line instruction :=
      ⟨[], line, [], .nil, .nil, hline, by rw [List.append_nil, List.nil_append]⟩
    cases hlines with
    | nil =>
      have hsource := @spellsLines_surrounded [] line [] _ .nil .nil hline
      rw [List.append_nil, List.nil_append] at hsource
      rwa [List.intercalate_singleton]
    | cons =>
      rw [List.intercalate_cons_cons, splitLines, List.append_assoc,
        splitLinesFrom_append hline.plain.1, List.singleton_append, splitLinesFrom,
        if_pos (by decide), List.nil_append]
      exact .instruction hspells ih

end ZeroCpu.Assembler
