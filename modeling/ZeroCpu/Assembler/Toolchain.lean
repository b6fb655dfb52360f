import ZeroCpu.Assembler.Passes
import ZeroCpu.Isa.Lossless
import ZeroCpu.Kernel.ProcessImage

/-!
# From source text to process image

Assembling, encoding, writing, reading and loading, end to end: nothing an earlier tool produces is
rejected or misplaced by a later one, up to the exact capacity of the process memory map.
-/

namespace ZeroCpu.Assembler

open Library Binary Kernel

/-! ## Assembled instructions encode -/

/-- An operand is not an undefined label. -/
def OperandDefined (labels : LabelTable) : Operand → Prop
  | .label name => (labels.lookup name).isSome = true
  | _ => True

instance (labels : LabelTable) (operand : Operand) : Decidable (OperandDefined labels operand) :=
  match operand with
  | .label name => inferInstanceAs (Decidable ((labels.lookup name).isSome = true))
  | .none | .register _ | .immediate _ | .memoryAddress _ | .registerIndirectAddress _ =>
      isTrue trivial

/-- Every label operand is a defined code label. -/
def LabelsDefined (program : AssembledProgram) : Prop :=
  ∀ instruction ∈ program.instructions, OperandDefined program.labels instruction.dst
    ∧ OperandDefined program.labels instruction.src

instance (program : AssembledProgram) : Decidable (LabelsDefined program) :=
  inferInstanceAs (Decidable (∀ instruction ∈ program.instructions,
    OperandDefined program.labels instruction.dst ∧ OperandDefined program.labels instruction.src))

/-- An operand whose label is defined is encoded. -/
theorem encodeOperand_of_defined {labels : LabelTable} {operand : Operand}
    (h : OperandDefined labels operand) :
    ∃ encoded, InstructionEncoder.encodeOperand operand labels = .ok encoded := by
  cases operand with
  | label name =>
    obtain ⟨index, hindex⟩ := Option.isSome_iff_exists.mp h
    simp only [InstructionEncoder.encodeOperand, hindex]
    exact ⟨_, rfl⟩
  | none => exact ⟨_, rfl⟩
  | register reg => exact ⟨_, rfl⟩
  | immediate value => exact ⟨_, rfl⟩
  | memoryAddress address => exact ⟨_, rfl⟩
  | registerIndirectAddress reg => exact ⟨_, rfl⟩

/-- A valid opcode is encoded. -/
theorem encodeOpcode_of_valid {opcode : Opcode} (h : opcode ≠ .Invalid) :
    ∃ byte, encodeOpcode opcode = .ok byte := by
  cases opcode <;> first
    | exact ⟨_, rfl⟩
    | exact absurd rfl h

/-- A program whose labels are defined is encoded. -/
theorem encodeProgram_of_defined {labels : LabelTable} {instructions : List Instruction}
    (h : ∀ instruction ∈ instructions, instruction.opcode ≠ .Invalid
      ∧ OperandDefined labels instruction.dst ∧ OperandDefined labels instruction.src) :
    ∃ code, InstructionEncoder.encodeProgram instructions labels = .ok code := by
  induction instructions with
  | nil => exact ⟨[], rfl⟩
  | cons head rest ih =>
    obtain ⟨hop, hdst, hsrc⟩ := h head (List.mem_cons_self ..)
    obtain ⟨tail, htail⟩ := ih fun i hi => h i (List.mem_cons_of_mem _ hi)
    obtain ⟨dst, hdst⟩ := encodeOperand_of_defined hdst
    obtain ⟨src, hsrc⟩ := encodeOperand_of_defined hsrc
    obtain ⟨byte, hbyte⟩ := encodeOpcode_of_valid hop
    simp only [InstructionEncoder.encodeProgram, InstructionEncoder.encodeInstruction, hdst, hsrc,
      hbyte, htail, ok_bind]
    exact ⟨_, rfl⟩

/-- A parsed instruction has a real opcode. -/
theorem opcode_of_parseInstructionLine {line : Str} {lineNumber : ℕ} {dataLabels : LabelTable}
    {instruction : Instruction}
    (h : parseInstructionLine line lineNumber dataLabels = .ok instruction) :
    instruction.opcode ≠ .Invalid := by
  simp only [parseInstructionLine, bind_eq_ok, reject_eq_ok] at h
  obtain ⟨_, -, _, hvalid, h⟩ := h
  have hop : opcodeFromString (nextToken line).1 ≠ .Invalid := by
    simpa [isValidOpcode] using hvalid
  split at h
  · obtain rfl := Except.ok.inj h
    exact hop
  · simp only [bind_eq_ok] at h
    obtain ⟨operands, -, h⟩ := h
    split at h
    · simp only [bind_eq_ok] at h
      obtain ⟨dst, -, heq⟩ := h
      obtain rfl := Except.ok.inj heq
      exact hop
    · simp only [bind_eq_ok] at h
      obtain ⟨dst, -, src, -, heq⟩ := h
      obtain rfl := Except.ok.inj heq
      exact hop
    · cases h

/-- What the later tools need to know about an assembled program. -/
theorem encodeProgram_of_assembled {source : Str} {program : AssembledProgram}
    (h : assembleString source = .ok program) (hlabels : LabelsDefined program) :
    (∃ code, InstructionEncoder.encodeProgram program.instructions program.labels = .ok code
      ∧ code.length = 24 * program.instructions.length)
    ∧ program.data_base = 0 ∧ program.data.length ≤ 512 := by
  obtain ⟨symbols, result, emitted, -, -, inv, einv, rfl⟩ := assembleString_eq_ok h
  refine ⟨?_, rfl, ?_⟩
  · have hvalid : ∀ instruction ∈ emitted.instructions, instruction.opcode ≠ .Invalid
        ∧ OperandDefined result.code_labels instruction.dst
        ∧ OperandDefined result.code_labels instruction.src := by
      intro instruction hmem
      refine ⟨?_, hlabels instruction hmem⟩
      obtain ⟨i, hlt, rfl⟩ := List.mem_iff_getElem.mp hmem
      have hparsed := List.forall₂_iff_get.mp einv.parsed
      obtain ⟨text, -, hparse⟩ := hparsed.2 i (by rw [hparsed.1]; exact hlt) hlt
      exact opcode_of_parseInstructionLine hparse
    obtain ⟨code, hcode⟩ := encodeProgram_of_defined hvalid
    exact ⟨code, hcode, (encodeProgram_eq_ok hcode).1⟩
  · change emitted.data.length ≤ 512
    rw [einv.data, ← inv.offset]
    exact inv.offset_le

/-! ## The executable -/

/-- The executable of an assembled program, given its code section. -/
def executableOf (program : AssembledProgram) (code : List UInt8) : BinaryProgram where
  header :=
    { entry_point := BitVec.ofNat 32 (program.entry_instruction * 24)
      code_size := BitVec.ofNat 32 code.length
      data_base := 0
      data_size := BitVec.ofNat 32 program.data.length }
  code := code
  data := program.data

/-- A program becomes an executable exactly when its entry and size fit. -/
theorem toBinaryProgram_eq_ok {program : AssembledProgram} {code : List UInt8}
    (hcode : InstructionEncoder.encodeProgram program.instructions program.labels = .ok code)
    (hbase : program.data_base = 0) (hdata : program.data.length ≤ 512) {binary : BinaryProgram} :
    program.toBinaryProgram = .ok binary ↔
      program.entry_instruction < program.instructions.length ∧ code.length < 2 ^ 32
      ∧ binary = executableOf program code := by
  simp only [AssembledProgram.toBinaryProgram, AssembledProgram.toBinaryProgramAt, bind_eq_ok,
    reject_eq_ok, exists_const, hcode, Except.ok.injEq, exists_eq_left', hbase]
  constructor
  · rintro ⟨-, hentry, hsize, heq⟩
    exact ⟨by omega, by omega, (Except.ok.inj heq).symm⟩
  · rintro ⟨hentry, hsize, rfl⟩
    refine ⟨?_, by omega, by omega, rfl⟩
    intro hnil
    rw [hnil] at hentry
    simp at hentry

/-- The executable round-trips through its file unchanged. -/
theorem executableOf_round_trip {program : AssembledProgram} {code : List UInt8}
    (hlen : code.length = 24 * program.instructions.length) (hsize : code.length < 2 ^ 32)
    (hdata : program.data.length ≤ 512)
    (hentry : program.entry_instruction < program.instructions.length) :
    ∃ bytes, BinaryWriter.writeToBytes (executableOf program code) = .ok bytes
      ∧ BinaryReader.readFromBytes bytes = .ok (executableOf program code) := by
  have hpoint : (executableOf program code).header.entry_point.toNat
      = program.entry_instruction * 24 := Nat.mod_eq_of_lt (by omega)
  have hrep : Representable (executableOf program code) := by
    refine ⟨rfl, nofun, hsize, ?_, ?_, ?_, ?_⟩
    · change program.data.length < 2 ^ 32
      omega
    · change code.length % 24 = 0
      omega
    · rw [hpoint, kInstructionSize]
      omega
    · rw [hpoint]
      change _ < code.length
      omega
  exact readFromBytes_writeToBytes hrep

/-- An executable of at most 64 instructions can be loaded. -/
theorem loadable_executableOf {program : AssembledProgram} {code : List UInt8}
    (hlen : code.length = 24 * program.instructions.length)
    (hn : program.instructions.length ≤ 64) (hdata : program.data.length ≤ 512)
    (hentry : program.entry_instruction < program.instructions.length) :
    Loadable (executableOf program code) := by
  have hpoint : (executableOf program code).header.entry_point.toNat
      = program.entry_instruction * 24 := Nat.mod_eq_of_lt (by omega)
  have hcode : (executableOf program code).code.length = code.length := rfl
  refine ⟨rfl, rfl, Nat.mod_eq_of_lt (by omega), Nat.mod_eq_of_lt (by omega), ?_, ?_, ?_, ?_, ?_, ?_,
    nofun⟩
  · omega
  · omega
  · omega
  · omega
  · omega
  · change 0 + program.data.length ≤ 512
    omega

/-! ## End to end -/

/-- Two half-open ranges without a common address. -/
def RangesDisjoint (a b : ℕ × ℕ) : Prop := a.2 ≤ b.1 ∨ b.2 ≤ a.1

/-- What the tools produce for an assembled program with code section `code`: a valid image with
the sections in place, everything else zero, and the initial User context at the entry. -/
structure ToolchainResult (program : AssembledProgram) (code : List UInt8) (image : ProcessImage) :
    Prop where
  valid : validateProcessImage image = .ok ()
  memory_size : image.memory.size = 4096
  memory_data : image.memory.slice 0 program.data.length = program.data
  memory_code : image.memory.slice 512 (24 * program.instructions.length) = code
  memory_zero : ∀ i, program.data.length ≤ i →
    (i < 512 ∨ 512 + 24 * program.instructions.length ≤ i) → image.memory.byteAt i = 0
  pc : image.initial_pc = 512 + 24 * program.entry_instruction
  sp : image.initial_sp = 0x800
  privilege : image.initial_privilege = .user
  kernel_sp : image.initial_kernel_stack_pointer = 0xFA0
  ranges_disjoint : [(0, program.data.length), (512, 512 + 24 * program.instructions.length),
    (MemoryMap.kUserStackBase, MemoryMap.kUserStackEndExclusive),
    (MemoryMap.kKernelStackBase, MemoryMap.kKernelStackEndExclusive)].Pairwise RangesDisjoint

/-- Its image is what the toolchain should make of the program. -/
theorem toolchainResult_imageOf {program : AssembledProgram} {code : List UInt8} {sourceName : Str}
    (hname : sourceName ≠ []) (hlen : code.length = 24 * program.instructions.length)
    (hn : program.instructions.length ≤ 64) (hdata : program.data.length ≤ 512)
    (hentry : program.entry_instruction < program.instructions.length) :
    ToolchainResult program code (imageOf (executableOf program code) sourceName) := by
  have hload := loadable_executableOf hlen hn hdata hentry
  have hvalid := hload.validImage hname
  have hbytes := hload.byteAt_memory sourceName
  exact {
    valid := validateProcessImage_eq_ok.mpr hvalid
    memory_size := hload.memory_size sourceName
    memory_data := hvalid.memory_data
    memory_code := by
      rw [← hlen]
      exact hvalid.memory_code
    -- An address outside both sections was never written.
    memory_zero := by
      intro i hi hout
      rw [hbytes, if_neg, if_neg]
      · change ¬ (0 ≤ i ∧ i < 0 + program.data.length)
        omega
      · change ¬ (512 ≤ i ∧ i < 512 + code.length)
        omega
    pc := by
      change 512 + (BitVec.ofNat 32 (program.entry_instruction * 24)).toNat = _
      rw [BitVec.toNat_ofNat, Nat.mod_eq_of_lt (by omega)]
      omega
    sp := rfl
    privilege := rfl
    kernel_sp := rfl
    ranges_disjoint := by
      simp only [List.pairwise_cons, List.mem_cons, List.not_mem_nil, or_false, forall_eq_or_imp,
        forall_eq, RangesDisjoint, MemoryMap.kUserStackBase, MemoryMap.kDefaultStackBase,
        MemoryMap.kUserStackEndExclusive, MemoryMap.kBioOSStackBase, MemoryMap.kKernelStackBase,
        MemoryMap.kKernelStackEndExclusive, MemoryMap.kDefaultMemorySize, List.Pairwise.nil,
        false_imp_iff, implies_true, and_true]
      omega }

/-- The toolchain, end to end. -/
theorem toolchain_end_to_end (source sourceName : Str) (program : AssembledProgram)
    (h : assembleString source = .ok program) (hlabels : LabelsDefined program)
    (hname : sourceName ≠ []) :
    (1 ≤ program.instructions.length → program.instructions.length ≤ 64 →
      program.entry_instruction < program.instructions.length →
      ∃ binary bytes image, program.toBinaryProgram = .ok binary
        ∧ BinaryWriter.writeToBytes binary = .ok bytes
        ∧ ProcessImageLoader.loadFromBytes bytes sourceName = .ok image
        ∧ InstructionEncoder.encodeProgram program.instructions program.labels = .ok binary.code
        ∧ ToolchainResult program binary.code image)
    ∧ (64 < program.instructions.length → ∀ binary bytes, program.toBinaryProgram = .ok binary →
      BinaryWriter.writeToBytes binary = .ok bytes →
      ∃ e, ProcessImageLoader.loadFromBytes bytes sourceName = .error e) := by
  obtain ⟨⟨code, hcode, hlen⟩, hbase, hdata⟩ := encodeProgram_of_assembled h hlabels
  refine ⟨?_, ?_⟩
  · intro _ hn hentry
    have hsize : code.length < 2 ^ 32 := by omega
    obtain ⟨bytes, hwrite, hread⟩ := executableOf_round_trip hlen hsize hdata hentry
    refine ⟨executableOf program code, bytes, imageOf (executableOf program code) sourceName,
      (toBinaryProgram_eq_ok hcode hbase hdata).mpr ⟨hentry, hsize, rfl⟩, hwrite, ?_, hcode,
      toolchainResult_imageOf hname hlen hn hdata hentry⟩
    rw [ProcessImageLoader.loadFromBytes, hread, ok_bind, loadProgram_eq_ok]
    exact ⟨hname, loadable_executableOf hlen hn hdata hentry, rfl⟩
  · intro hn binary bytes hbinary hwrite
    obtain ⟨hentry, hsize, rfl⟩ := (toBinaryProgram_eq_ok hcode hbase hdata).mp hbinary
    obtain ⟨bytes', hwrite', hread⟩ := executableOf_round_trip hlen hsize hdata hentry
    obtain rfl := Except.ok.inj (hwrite.symm.trans hwrite')
    rw [ProcessImageLoader.loadFromBytes, hread, ok_bind]
    -- The image would hold more code than there is room for.
    cases hload : ProcessImageLoader.loadProgram (executableOf program code) sourceName with
    | error e => exact ⟨e, rfl⟩
    | ok image =>
      have hle := (loadProgram_eq_ok.mp hload).2.1.code_le
      change code.length ≤ 1536 at hle
      omega

/-- The sample program, from its source to its image. -/
theorem toolchain_end_to_end_sample :
    ∃ program binary bytes image, assembleString sampleSource = .ok program
      ∧ LabelsDefined program ∧ program.toBinaryProgram = .ok binary
      ∧ BinaryWriter.writeToBytes binary = .ok bytes
      ∧ ProcessImageLoader.loadFromBytes bytes (Str.ofString "sample") = .ok image
      ∧ ToolchainResult program binary.code image := by
  have hrun : ((assembleString sampleSource).toOption.map fun program =>
      (decide (LabelsDefined program), program.instructions.length, program.entry_instruction))
        = some (true, 2, 0) := by
    decide +kernel
  cases ha : assembleString sampleSource with
  | error e =>
    rw [ha] at hrun
    simp [Except.toOption] at hrun
  | ok program =>
    rw [ha] at hrun
    simp only [Except.toOption, Option.map_some, Option.some.injEq, Prod.mk.injEq,
      decide_eq_true_eq] at hrun
    obtain ⟨hlabels, hn, hentry⟩ := hrun
    obtain ⟨binary, bytes, image, h1, h2, h3, -, h4⟩ :=
      (toolchain_end_to_end sampleSource (Str.ofString "sample") program ha hlabels (by decide)).1
        (by omega) (by omega) (by omega)
    exact ⟨program, binary, bytes, image, rfl, hlabels, h1, h2, h3, h4⟩

end ZeroCpu.Assembler
