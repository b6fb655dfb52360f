import ZeroCpu.Assembler.Text

/-!
# The two assembler passes

Reference: `src/assembler/Assembler.cpp`.

`collectSymbols` walks the lines to place labels, `emitProgram` walks them again to emit
instructions and data. The source writes the line classification twice, once in each pass, and so
does the model.
-/

namespace ZeroCpu.Assembler

open Library Binary MemoryMap

/-! ## The symbol pass -/

/-- The loop variables of `collectSymbols`: the section, the two counters, the tables and the entry
label with its line. -/
structure SymbolPass where
  sect : AssemblySection := .Text
  instructionIndex : ℕ := 0
  dataOffset : ℕ := 0
  code_labels : LabelTable := []
  data_labels : LabelTable := []
  entry : Option (Str × ℕ) := none

/-- `SymbolPassResult`; the entry fields hold defaults when there is no `.entry`. -/
structure SymbolPassResult where
  code_labels : LabelTable
  data_labels : LabelTable
  data_size : ℕ
  has_entry : Bool
  entry_label : Str
  entry_instruction : ℕ

/-- No code or data label has the name yet. -/
def requireUniqueSymbol (label : Str) (lineNumber : ℕ) (pass : SymbolPass) : Except Str Unit :=
  reject ((pass.code_labels.lookup label).isSome ∨ (pass.data_labels.lookup label).isSome)
    ("Duplicate label '" ++ label ++ "' at line " ++ toStr lineNumber)

/-- Enter a new label at the current position of the current section. -/
def SymbolPass.define (pass : SymbolPass) (label : Str) : SymbolPass :=
  match pass.sect with
  | .Text => { pass with code_labels := pass.code_labels ++ [(label, pass.instructionIndex)] }
  | .Data =>
      { pass with data_labels := pass.data_labels ++ [(label, kUserDataBase + pass.dataOffset)] }

/-- The label loop of `collectSymbols`. Every round removes at least the colon, so the length of
the line bounds the number of rounds. -/
def collectLabels (lineNumber : ℕ) :
    ℕ → Str → SymbolPass → Bool → Except Str (SymbolPass × Bool × Str)
  | 0, line, pass, hadLabel => .ok (pass, hadLabel, line)
  | fuel + 1, line, pass, hadLabel =>
      match tryConsumeLabel line with
      | (none, line) => .ok (pass, hadLabel, line)
      | (some label, line) => do
          requireValidLabelName label lineNumber
          requireUniqueSymbol label lineNumber pass
          collectLabels lineNumber fuel (trim line) (pass.define label) true

/-- What is left of a line behind its labels, in the symbol pass. -/
def collectStatement (lineNumber : ℕ) (hadLabel : Bool) (line : Str) (pass : SymbolPass) :
    Except Str SymbolPass :=
  if line = [] then .ok pass
  else if isSectionDirective line then do
    reject hadLabel
      ("Section directive cannot share a line with a label at line " ++ toStr lineNumber)
    pure { pass with sect := sectionFromDirective line }
  else if isEntryDirective line then do
    reject hadLabel (".entry cannot share a line with a label at line " ++ toStr lineNumber)
    match pass.entry with
    | some (_, entryLine) => .error ("Duplicate .entry directive at line " ++ toStr lineNumber
        ++ "; first declared at line " ++ toStr entryLine)
    | none => do
        let label ← parseEntryDirective line lineNumber
        pure { pass with entry := some (label, lineNumber) }
  else if pass.sect = .Data then do
    reject (line.head? ≠ some '.')
      ("Instruction is not allowed in .data at line " ++ toStr lineNumber)
    let bytes ← parseDataDirective line lineNumber
    reject (bytes.length > kUserDataSize - pass.dataOffset)
      ("Initialized data exceeds the User data region at line " ++ toStr lineNumber)
    pure { pass with dataOffset := pass.dataOffset + bytes.length }
  else do
    reject (line.head? = some '.')
      ("Data directive is only allowed in .data at line " ++ toStr lineNumber)
    pure { pass with instructionIndex := pass.instructionIndex + 1 }

/-- One round of the line loop of `collectSymbols`. -/
def collectLine (lineNumber : ℕ) (text : Str) (pass : SymbolPass) : Except Str SymbolPass := do
  let line := trim (removeComment text)
  let (pass, hadLabel, line) ← collectLabels lineNumber (line.length + 1) line pass false
  collectStatement lineNumber hadLabel line pass

/-- The line loop of `collectSymbols`, from line `index + 1` on. -/
def collectLines (index : ℕ) : List Str → SymbolPass → Except Str SymbolPass
  | [], pass => .ok pass
  | text :: rest, pass => do
      let pass ← collectLine (index + 1) text pass
      collectLines (index + 1) rest pass

/-- The entry check at the end of `collectSymbols`. -/
def resolveEntry (pass : SymbolPass) : Except Str SymbolPassResult :=
  match pass.entry with
  | none => .ok {
      code_labels := pass.code_labels
      data_labels := pass.data_labels
      data_size := pass.dataOffset
      has_entry := false
      entry_label := []
      entry_instruction := 0 }
  | some (label, _) => do
      reject ((pass.data_labels.lookup label).isSome)
        ("Executable entry label '" ++ label ++ "' refers to initialized data")
      match pass.code_labels.lookup label with
      | none => .error ("Undefined executable entry label: " ++ label)
      | some index => pure {
          code_labels := pass.code_labels
          data_labels := pass.data_labels
          data_size := pass.dataOffset
          has_entry := true
          entry_label := label
          entry_instruction := index }

/-- `Assembler::collectSymbols`. -/
def collectSymbols (lines : List Str) : Except Str SymbolPassResult := do
  let pass ← collectLines 0 lines {}
  resolveEntry pass

/-! ## The emission pass -/

/-- `AssembledProgram`. -/
structure AssembledProgram where
  instructions : List Instruction
  instruction_source_lines : List ℕ
  labels : LabelTable
  data_labels : LabelTable
  data_base : ℕ
  data : List UInt8
  has_explicit_entry : Bool
  entry_label : Str
  entry_instruction : ℕ

/-- The label loop of `emitProgram`. -/
def skipLabels : ℕ → Str → Str
  | 0, line => line
  | fuel + 1, line =>
      match tryConsumeLabel line with
      | (none, line) => line
      | (some _, line) => skipLabels fuel (trim line)

/-- The loop variables of `emitProgram`. -/
structure EmitPass where
  sect : AssemblySection := .Text
  instructions : List Instruction := []
  instruction_source_lines : List ℕ := []
  data : List UInt8 := []

/-- What is left of a line behind its labels, in the emission pass. -/
def emitStatement (dataLabels : LabelTable) (lineNumber : ℕ) (line : Str) (pass : EmitPass) :
    Except Str EmitPass :=
  if line = [] then .ok pass
  else if isSectionDirective line then .ok { pass with sect := sectionFromDirective line }
  else if isEntryDirective line then .ok pass
  else if pass.sect = .Data then do
    let bytes ← parseDataDirective line lineNumber
    pure { pass with data := pass.data ++ bytes }
  else do
    let instruction ← parseInstructionLine line lineNumber dataLabels
    pure { pass with
      instructions := pass.instructions ++ [instruction]
      instruction_source_lines := pass.instruction_source_lines ++ [lineNumber] }

/-- One round of the line loop of `emitProgram`. -/
def emitLine (dataLabels : LabelTable) (lineNumber : ℕ) (text : Str) (pass : EmitPass) :
    Except Str EmitPass :=
  let line := trim (removeComment text)
  emitStatement dataLabels lineNumber (skipLabels (line.length + 1) line) pass

/-- The line loop of `emitProgram`, from line `index + 1` on. -/
def emitLines (dataLabels : LabelTable) (index : ℕ) : List Str → EmitPass → Except Str EmitPass
  | [], pass => .ok pass
  | text :: rest, pass => do
      let pass ← emitLine dataLabels (index + 1) text pass
      emitLines dataLabels (index + 1) rest pass

/-- `Assembler::emitProgram`. -/
def emitProgram (lines : List Str) (symbols : SymbolPassResult) : Except Str AssembledProgram := do
  let pass ← emitLines symbols.data_labels 0 lines {}
  pure {
    instructions := pass.instructions
    instruction_source_lines := pass.instruction_source_lines
    labels := symbols.code_labels
    data_labels := symbols.data_labels
    data_base := kUserDataBase
    data := pass.data
    has_explicit_entry := symbols.has_entry
    entry_label := symbols.entry_label
    entry_instruction := symbols.entry_instruction }

/-- `Assembler::assembleString`. -/
def assembleString (source : Str) : Except Str AssembledProgram := do
  let lines := splitLines source
  let symbols ← collectSymbols lines
  emitProgram lines symbols

/-! ## Executables -/

/-- `AssembledProgram::toBinaryProgram(entryInstruction)`. -/
def AssembledProgram.toBinaryProgramAt (program : AssembledProgram) (entryInstruction : ℕ) :
    Except Str BinaryProgram := do
  reject (program.instructions = []) "Cannot emit an executable with an empty text section"
  reject (entryInstruction ≥ program.instructions.length)
    "Executable entry instruction is outside the text section"
  let code ← InstructionEncoder.encodeProgram program.instructions program.labels
  reject (code.length > 2 ^ 32 - 1 ∨ program.data.length > 2 ^ 32 - 1
      ∨ program.data_base > 2 ^ 32 - 1)
    "Assembled executable exceeds binary format limits"
  pure {
    header := {
      major_version := kMajorVersion
      minor_version := kMinorVersion
      endianness := .Little
      entry_point := BitVec.ofNat 32 (instructionIndexToAddress entryInstruction)
      code_size := BitVec.ofNat 32 code.length
      data_base := BitVec.ofNat 32 program.data_base
      data_size := BitVec.ofNat 32 program.data.length }
    code := code
    data := program.data }

/-- `AssembledProgram::toBinaryProgram()`. -/
def AssembledProgram.toBinaryProgram (program : AssembledProgram) : Except Str BinaryProgram :=
  program.toBinaryProgramAt program.entry_instruction

end ZeroCpu.Assembler
