import ZeroCpu.Assembler.Reassembly
import ZeroCpu.Debug.SessionRuns

/-!
# The disassembler

Reference: `include/zero_cpu/debug/DebugInspector.hpp`, `src/debug/DebugInspector.cpp`.

`DebugInspector::disassemble` decodes the code section from the memory of a session and prints it
with functions of its own. What it prints of a section assembles to the bytes of that section again.
-/

namespace ZeroCpu.Debug

open Library Binary Kernel InstructionDecoder

/-- `DisassembledInstruction`. -/
structure DisassembledInstruction where
  address : ℕ := 0
  opcode : Opcode := .Invalid
  dst_type : EncodedOperandType := .None
  src_type : EncodedOperandType := .None
  dst_payload : Word := 0
  src_payload : Word := 0
  text : Str := []
  current_pc : Bool := false
  breakpoint : Bool := false
deriving DecidableEq

namespace DebugInspector

/-! ## Printing -/

/-- `registerName(registerFromPayload(payload))`: the number of a register behind an `R`. -/
def registerName (payload : Word) : Except Str Str := do
  reject (payload.toInt < 0 ∨ payload.toInt ≥ 8) "Disassembler register payload is out of range"
  pure ("R" ++ toStr payload.toNat)

/-- `DebugInspector::formatOperand`. -/
def formatOperand (session : DebugSession) (type : EncodedOperandType) (payload : Word) :
    Except Str Str :=
  match type with
  | .None => do
      reject (payload ≠ 0) "None operand has non-zero payload"
      pure []
  | .Register => registerName payload
  | .Immediate => pure (intToStr payload.toInt)
  | .MemoryAddress => do
      reject (payload.toInt < 0) "Disassembler memory address is negative"
      pure ("[" ++ intToStr payload.toInt ++ "]")
  | .RegisterIndirectAddress => do
      let name ← registerName payload
      pure ("[" ++ name ++ "]")
  | .CodeAddress => do
      reject (payload.toInt < 0) "Disassembler code offset is negative"
      let base := session.metadata.code_base
      let offset := payload.toNat
      reject (offset > sizeMax - base) "Disassembler code address overflow"
      pure (toStr (base + offset))

/-- `DebugInspector::formatInstruction`. -/
def formatInstruction (session : DebugSession) (instruction : DecodedInstruction) :
    Except Str Str := do
  let dst ← formatOperand session instruction.dst_type instruction.dst_payload
  let src ← formatOperand session instruction.src_type instruction.src_payload
  let output := instruction.opcode.name
  let output := if dst = [] then output else output ++ " " ++ dst
  pure (if src = [] then output else output ++ ", " ++ src)

/-- One round of the loop of `disassemble`. -/
def disassembleAt (session : DebugSession) (current : ℕ) : Except Str DisassembledInstruction := do
  reject (session.metadata.code_end_exclusive - current < kInstructionSize)
    "Executable code section ends with a partial instruction"
  let bytes ← session.cpu.core.state.memory.readBytes current kInstructionSize
  let decoded ← decodeInstruction bytes
  let text ← formatInstruction session decoded
  let breakpoint ← (DebugSession.hasBreakpoint current session).1
  pure {
    address := current
    opcode := decoded.opcode
    dst_type := decoded.dst_type
    src_type := decoded.src_type
    dst_payload := decoded.dst_payload
    src_payload := decoded.src_payload
    text := text
    current_pc := session.cpu.core.state.pc == current
    breakpoint := breakpoint }

/-- The loop of `disassemble`, which prints as many instructions as its first argument says, or
fewer where the section ends. -/
def disassembleFrom (session : DebugSession) :
    ℕ → ℕ → Except Str (List DisassembledInstruction)
  | 0, _ => .ok []
  | remaining + 1, current =>
      if current < session.metadata.code_end_exclusive then do
        let item ← disassembleAt session current
        let rest ← disassembleFrom session remaining (current + kInstructionSize)
        pure (item :: rest)
      else .ok []

/-- `DebugInspector::disassemble`. -/
def disassemble (session : DebugSession) (address instructionCount : ℕ) :
    Except Str (List DisassembledInstruction) := do
  reject (instructionCount = 0) "Disassembly instruction count must be greater than zero"
  reject (address < session.metadata.code_base ∨ address ≥ session.metadata.code_end_exclusive)
    "Disassembly address is outside the executable code section"
  reject ((address - session.metadata.code_base) % kInstructionSize ≠ 0)
    "Disassembly address is not instruction-aligned"
  disassembleFrom session instructionCount address

/-! ## Source forms -/

/-- The encoded operands that have a source text without labels, and the absent operand. -/
def SourceForm (type : EncodedOperandType) (payload : Word) : Prop :=
  match type with
  | .None => payload = 0
  | .Register | .RegisterIndirectAddress => payload.toNat < 8
  | .Immediate => True
  | .MemoryAddress => payload.toNat < 2 ^ 63
  | .CodeAddress => False

/-- A block whose operands have source texts, the source only behind a destination. -/
structure SourceBlock (d : DecodedInstruction) : Prop where
  dst : SourceForm d.dst_type d.dst_payload
  src : SourceForm d.src_type d.src_payload
  dst_present : d.src_type ≠ .None → d.dst_type ≠ .None

/-- Every block of the section decodes to such operands. -/
def SourceSection (code : List UInt8) : Prop :=
  ∀ i < code.length / 24, ∃ d, decodeInstruction (codeBlock code i) = .ok d ∧ SourceBlock d

/-! ## Printed blocks -/

/-- What is known of the operand that an encoded one stands for. -/
structure Prints (session : DebugSession) (type : EncodedOperandType) (payload : Word)
    (operand : Operand) : Prop where
  traceable : CPU.TraceableOperand operand
  none_iff : operand = .none ↔ type = .None
  text : formatOperand session type payload
    = .ok (if operand = .none then [] else operand.toString)
  encode : ∀ labels, InstructionEncoder.encodeOperand operand labels = .ok ⟨type, payload⟩

/-- The register of a payload below 8, as both printers and the encoder have it. -/
theorem exists_register {payload : Word} (h : payload.toNat < 8) :
    ∃ reg : RegisterName, registerName payload = .ok (registerNameToString reg)
      ∧ Word.ofSize (InstructionEncoder.encodeRegister reg).toNat = payload := by
  have hall : ∀ n < 8, ∃ reg ∈ RegisterName.all,
      registerName (BitVec.ofNat 64 n) = .ok (registerNameToString reg)
        ∧ Word.ofSize (InstructionEncoder.encodeRegister reg).toNat = BitVec.ofNat 64 n := by
    decide
  obtain ⟨reg, -, hreg⟩ := hall payload.toNat h
  rw [BitVec.ofNat_toNat, BitVec.setWidth_eq] at hreg
  exact ⟨reg, hreg⟩

/-- An operand in source form is printed. -/
theorem exists_prints (session : DebugSession) {type : EncodedOperandType} {payload : Word}
    (h : SourceForm type payload) : ∃ operand, Prints session type payload operand := by
  cases type with
  | None =>
    obtain rfl : payload = 0 := h
    exact ⟨.none, trivial, by simp, rfl, fun _ => rfl⟩
  | Register =>
    obtain ⟨reg, hname, hencode⟩ := exists_register h
    exact ⟨.register reg, trivial, by simp, hname, fun _ => by rw [← hencode]; rfl⟩
  | Immediate => exact ⟨.immediate payload, trivial, by simp, rfl, fun _ => rfl⟩
  | MemoryAddress =>
    have hint : payload.toInt = payload.toNat := BitVec.toInt_eq_toNat_of_lt (by
      have : payload.toNat < 2 ^ 63 := h
      omega)
    refine ⟨.memoryAddress payload, h, by simp, ?_, fun _ => rfl⟩
    rw [formatOperand, reject_of_not (by omega), hint]
    rfl
  | RegisterIndirectAddress =>
    obtain ⟨reg, hname, hencode⟩ := exists_register h
    refine ⟨.registerIndirectAddress reg, trivial, by simp, ?_, fun _ => by rw [← hencode]; rfl⟩
    rw [formatOperand, hname]
    rfl
  | CodeAddress => exact h.elim

/-- A block of source form is printed as the instruction that encodes to it. -/
theorem exists_instruction (session : DebugSession) {d : DecodedInstruction} {bs : List UInt8}
    (hd : decodeInstruction bs = .ok d) (h : SourceBlock d) :
    ∃ instruction : Instruction, CPU.Traceable instruction ∧ instruction.opcode ≠ .Invalid
      ∧ formatInstruction session d = .ok instruction.toString
      ∧ ∀ labels, InstructionEncoder.encodeInstruction instruction labels = .ok bs := by
  obtain ⟨dst, hdst⟩ := exists_prints session h.dst
  obtain ⟨src, hsrc⟩ := exists_prints session h.src
  have hbytes := bytes_of_decodeInstruction hd
  have hvalid : d.opcode ≠ .Invalid := by
    obtain ⟨opcode, hopcode, -⟩ := Library.bind_eq_ok.mp hbytes
    exact (decodeOpcode_encodeOpcode hopcode).2
  refine ⟨⟨d.opcode, dst, src⟩, ⟨hdst.traceable, hsrc.traceable, ?_⟩, hvalid, ?_, fun labels => ?_⟩
  · exact fun hne => mt hdst.none_iff.mp (h.dst_present (mt hsrc.none_iff.mpr hne))
  · rw [formatInstruction, hdst.text, ok_bind, hsrc.text, ok_bind]
    have htext : ∀ operand, CPU.TraceableOperand operand → operand ≠ .none → operand.toString ≠ [] :=
      fun _ ht hne => (Assembler.spellsOperand_of_lowerCopy ht hne rfl).ne_nil
    simp only [Instruction.toString, Instruction.destinationText, Instruction.sourceText,
      Instruction.hasDestination, Instruction.hasSource, bne_iff_ne, ite_not]
    by_cases hnone : dst = .none <;> by_cases hsrcNone : src = .none
    · simp [hnone, hsrcNone, pure, Except.pure]
    · simp [hnone, hsrcNone, htext src hsrc.traceable hsrcNone, pure, Except.pure]
    · simp [hnone, hsrcNone, htext dst hdst.traceable hnone, pure, Except.pure]
    · simp [hnone, hsrcNone, htext dst hdst.traceable hnone, htext src hsrc.traceable hsrcNone,
        pure, Except.pure]
  · rw [InstructionEncoder.encodeInstruction, hdst.encode, ok_bind, hsrc.encode, ok_bind]
    exact hbytes

/-! ## Printed sections -/

section

variable {image : ProcessImage} {session : DebugSession}

/-- The block that the disassembler reads is the one of the executable. -/
theorem readBytes_codeBlock (h : DebugSession.Debugs image session) {i : ℕ}
    (hi : i < image.executable.code.length / 24) :
    session.cpu.core.state.memory.readBytes (512 + 24 * i) kInstructionSize
      = .ok (codeBlock image.executable.code i) := by
  have hle := h.valid.code_le
  have hcode := (savedMemory_of_userContext h.context).slice_code h.valid
  refine Memory.readBytes_eq_ok.mpr ⟨?_, ?_⟩
  · rw [h.context.memory_size, kInstructionSize]
    omega
  · rw [codeBlock, ← hcode, Memory.slice, Memory.slice, List.drop_take, List.take_take,
      List.drop_drop, Nat.min_eq_left (by omega), kInstructionSize]

/-- What one round prints of a block of source form. -/
theorem exists_item (h : DebugSession.Debugs image session)
    (hsource : SourceSection image.executable.code) {i : ℕ}
    (hi : i < image.executable.code.length / 24) :
    ∃ item instruction, disassembleAt session (512 + 24 * i) = .ok item
      ∧ Assembler.SpellsInstruction item.text instruction
      ∧ ∀ labels, InstructionEncoder.encodeInstruction instruction labels
        = .ok (codeBlock image.executable.code i) := by
  obtain ⟨d, hd, hblock⟩ := hsource i hi
  obtain ⟨instruction, ht, hvalid, htext, hencode⟩ := exists_instruction session hd hblock
  have hend := h.valid.code_end
  have hbreakpoint : (DebugSession.hasBreakpoint (512 + 24 * i) session).1
      = .ok (decide (512 + 24 * i ∈ session.breakpoints)) := by
    rw [DebugSession.hasBreakpoint, DebugSession.requireLoaded]
    simp [Exec.bind_apply, Exec.require_apply, h.loaded]
  obtain ⟨item, hitem, htext⟩ : ∃ item, disassembleAt session (512 + 24 * i) = .ok item
      ∧ item.text = instruction.toString := by
    rw [disassembleAt, h.metadata, hend, reject_of_not (by rw [kInstructionSize]; omega), ok_bind,
      readBytes_codeBlock h hi, ok_bind, hd, ok_bind, htext, ok_bind, hbreakpoint, ok_bind]
    exact ⟨_, rfl, rfl⟩
  have hspells : Assembler.SpellsInstruction item.text instruction :=
    Assembler.spellsInstruction_of_lowerCopy ht hvalid (by rw [htext])
  exact ⟨item, instruction, hitem, hspells, hencode⟩

/-- The loop prints the rest of the section. -/
theorem exists_items (h : DebugSession.Debugs image session)
    (hsource : SourceSection image.executable.code) (n : ℕ) {i : ℕ}
    (hn : 24 * (i + n) = image.executable.code.length) :
    ∃ items instructions, disassembleFrom session n (512 + 24 * i) = .ok items
      ∧ List.Forall₂ Assembler.SpellsInstruction (items.map DisassembledInstruction.text) instructions
      ∧ ∀ labels, InstructionEncoder.encodeProgram instructions labels
        = .ok (image.executable.code.drop (24 * i)) := by
  induction n generalizing i with
  | zero =>
    refine ⟨[], [], rfl, .nil, fun labels => ?_⟩
    rw [List.drop_eq_nil_of_le (by omega)]
    rfl
  | succ n ih =>
    have hend := h.valid.code_end
    obtain ⟨item, instruction, hitem, hspells, hencode⟩ := exists_item h hsource (i := i) (by omega)
    obtain ⟨items, instructions, hitems, hspellsRest, hencodeRest⟩ := ih (i := i + 1) (by omega)
    refine ⟨item :: items, instruction :: instructions, ?_, .cons hspells hspellsRest, fun labels => ?_⟩
    · rw [disassembleFrom, if_pos (by rw [h.metadata, hend]; omega), hitem, ok_bind,
        kInstructionSize, show 512 + 24 * i + 24 = 512 + 24 * (i + 1) by omega, hitems]
      rfl
    · rw [InstructionEncoder.encodeProgram, hencode, ok_bind, hencodeRest, ok_bind, codeBlock,
        show 24 * (i + 1) = 24 * i + 24 by omega, ← List.drop_drop]
      exact congrArg Except.ok (List.take_append_drop _ _)

/-- Printed instructions assemble to themselves. A line of what `Instruction::toString` prints, in any
letter case and between any white space, is assembled to that instruction, unless it has a source
without a destination; and what the disassembler prints of the code section of a debugged process, in
which no block has one either, is assembled to the bytes of the section. -/
theorem disassembly_reassembles [LongDouble] :
    (∀ (instruction : Instruction) (before line after : Str), CPU.Traceable instruction →
      instruction.opcode ≠ .Invalid → Assembler.Blank before → Assembler.Blank after →
      Assembler.lowerCopy line = Assembler.lowerCopy instruction.toString →
      ∃ program, Assembler.assembleString (before ++ line ++ after) = .ok program
        ∧ program.instructions = [instruction] ∧ program.data = [] ∧ program.labels = [])
    ∧ ∀ (image : ProcessImage) (session : DebugSession), DebugSession.Reached image session →
      SourceSection image.executable.code →
      ∃ items program, disassemble session image.metadata.code_base
          (image.executable.code.length / kInstructionSize) = .ok items
        ∧ Assembler.assembleString ([10].intercalate (items.map DisassembledInstruction.text))
          = .ok program
        ∧ InstructionEncoder.encodeProgram program.instructions program.labels
          = .ok image.executable.code := by
  constructor
  · intro instruction before line after ht hvalid hbefore hafter hline
    have hspells := Assembler.spellsInstruction_of_lowerCopy ht hvalid hline
    exact Assembler.assembleString_of_spells
      (Assembler.spellsLines_surrounded hbefore hafter hspells)
  · intro image session hreached hsource
    have h := hreached.debugs
    have hpos := h.valid.code_pos
    have haligned := h.valid.code_aligned
    have hbase := h.valid.code_base
    have hend := h.valid.code_end
    obtain ⟨items, instructions, hitems, hspells, hencode⟩ :=
      exists_items h hsource (image.executable.code.length / 24) (i := 0) (by omega)
    obtain ⟨program, hprogram, rfl, -, -⟩ :=
      Assembler.assembleString_of_spells (Assembler.spellsLines_intercalate hspells)
    refine ⟨items, program, ?_, hprogram, hencode _⟩
    rw [disassemble, h.metadata, hbase, hend, kInstructionSize, reject_of_not (by omega), ok_bind,
      reject_of_not (by omega), ok_bind, reject_of_not (by omega), ok_bind]
    exact hitems

end

/-- A line and a section that assemble to what they were printed from. -/
theorem disassembly_reassembles_load :
    letI : LongDouble := LongDouble.x87
    let image := imageOf loadFirstWord (Str.ofString "load")
    let session := (DebugSession.loadImage image DebugSession.initial).2
    (∃ program, Assembler.assembleString (Str.ofString "\n  load r0, [0] \n") = .ok program
      ∧ program.instructions = [⟨.LOAD, .register .R0, .memoryAddress 0⟩]
      ∧ program.data = [] ∧ program.labels = [])
    ∧ ∃ items program, disassemble session image.metadata.code_base
          (image.executable.code.length / kInstructionSize) = .ok items
        ∧ Assembler.assembleString ([10].intercalate (items.map DisassembledInstruction.text))
          = .ok program
        ∧ InstructionEncoder.encodeProgram program.instructions program.labels
          = .ok image.executable.code := by
  intro image session
  let _ : LongDouble := LongDouble.x87
  have hv : ValidImage image := loadable_loadFirstWord.validImage (by decide)
  have hreached : DebugSession.Reached image session :=
    DebugSession.reached_loadImage hv (fun _ => rfl) DebugSession.initial
  -- The section has one instruction, at index 0.
  have hsource : SourceSection image.executable.code := by
    intro i hi
    have hlength : image.executable.code.length = 24 := by decide
    obtain rfl : i = 0 := by omega
    refine ⟨⟨.LOAD, .Register, .MemoryAddress, 0, 0⟩, by decide +kernel, ?_⟩
    exact ⟨show (0 : Word).toNat < 8 by decide, show (0 : Word).toNat < 2 ^ 63 by decide, by decide⟩
  refine ⟨?_, disassembly_reassembles.2 image session hreached hsource⟩
  refine disassembly_reassembles.1 ⟨.LOAD, .register .R0, .memoryAddress 0⟩ "\n  " "load r0, [0]" " \n"
    ⟨trivial, show (0 : Word).toNat < 2 ^ 63 by decide, by decide⟩ (by decide) (by decide) (by decide)
    (by decide +kernel)

/-- `NOP` with a source operand as an executable. -/
def sourceOnly : BinaryProgram := oneInstruction ⟨.NOP, .none, .register .R1⟩

/-- The program can be loaded. -/
theorem loadable_sourceOnly : Loadable sourceOnly where
  supported := by decide
  little := by decide
  header_code_size := by decide
  header_data_size := by decide
  code_pos := by decide
  code_le := by decide
  code_aligned := by decide
  entry_lt := by decide
  entry_aligned := by decide
  data_le := by decide
  legacy_data := by decide

/-- A source operand without a destination is printed as a line that does not assemble. -/
theorem source_only_not_reassembled :
    letI : LongDouble := LongDouble.x87
    let image := imageOf sourceOnly (Str.ofString "nop")
    let instruction : Instruction := ⟨.NOP, .none, .register .R1⟩
    (Assembler.assembleString instruction.toString).toOption = none
    ∧ decodeInstruction image.executable.code = .ok ⟨.NOP, .None, .Register, 0, 1⟩
    ∧ ∃ session item, DebugSession.Reached image session
      ∧ disassemble session image.metadata.code_base 1 = .ok [item]
      ∧ item.text = instruction.toString
      ∧ (Assembler.assembleString item.text).toOption = none := by
  intro image instruction
  let _ : LongDouble := LongDouble.x87
  have hv : ValidImage image := loadable_sourceOnly.validImage (by decide)
  have hreached := DebugSession.reached_loadImage hv (fun _ => rfl) DebugSession.initial
  have hrejected : (Assembler.assembleString instruction.toString).toOption = none := by
    decide +kernel
  refine ⟨hrejected, by decide +kernel, _, ⟨512, .NOP, .None, .Register, 0, 1, instruction.toString,
    true, false⟩, hreached, ?_, rfl, hrejected⟩
  decide +kernel

end DebugInspector

end ZeroCpu.Debug
