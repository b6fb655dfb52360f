import ZeroCpu.Core.Execute

/-!
# Instruction encoding is lossless

Reference: `src/isa/InstructionEncoder.cpp`, `src/isa/InstructionDecoder.cpp`, `src/core/CPU.cpp`.

The encoder, the decoder and the CPU's trace reconstruction are three separate pieces of code over
one 24-byte layout. `DecodedInstruction.bytes` writes that layout down once: the encoder produces
it, and the decoder accepts exactly the strings of that form.
-/

namespace ZeroCpu

open Library InstructionEncoder InstructionDecoder

/-- The 24 bytes of a decoded instruction. -/
def DecodedInstruction.bytes (d : DecodedInstruction) : Except Str (List UInt8) := do
  let opcode ← encodeOpcode d.opcode
  pure ([opcode, d.dst_type.raw, d.src_type.raw, 0x00]
    ++ leBytes 8 d.dst_payload ++ leBytes 8 d.src_payload ++ [0, 0, 0, 0])

/-! ## Opcodes and operand types -/

theorem decodeOpcode_encodeOpcode {opcode : Opcode} {byte : UInt8}
    (h : encodeOpcode opcode = .ok byte) : decodeOpcode byte = opcode ∧ opcode ≠ .Invalid := by
  cases opcode <;> cases h <;> exact ⟨rfl, nofun⟩

/-- A valid opcode that is decoded is encoded back. -/
theorem encodeOpcode_of_decodeOpcode {byte : UInt8} {opcode : Opcode}
    (h : decodeOpcode byte = opcode) (hvalid : opcode ≠ .Invalid) :
    encodeOpcode opcode = .ok byte := by
  unfold decodeOpcode at h
  split at h <;> subst h <;> first
    | exact absurd rfl hvalid
    | exact congrArg Except.ok (UInt8.toNat_inj.mp (Eq.symm ‹byte.toNat = _›))

theorem decodeOperandType_raw (type : EncodedOperandType) :
    decodeOperandType type.raw = .ok type := by
  cases type <;> rfl

/-- A decoded operand type is the one that was encoded. -/
theorem raw_of_decodeOperandType {byte : UInt8} {type : EncodedOperandType}
    (h : decodeOperandType byte = .ok type) : byte = type.raw := by
  unfold decodeOperandType at h
  split at h <;> cases h <;> exact UInt8.toNat_inj.mp ‹byte.toNat = _›

/-! ## Blocks of 24 bytes -/

/-- An encoded instruction has its 24 bytes. -/
theorem length_bytes {d : DecodedInstruction} {bs : List UInt8} (h : d.bytes = .ok bs) :
    bs.length = kInstructionSize := by
  simp only [DecodedInstruction.bytes, bind_eq_ok] at h
  obtain ⟨opcode, -, heq⟩ := h
  cases heq
  simp [kInstructionSize]

/-- A word is its eight bytes. -/
theorem leBytes_eight (v : Word) :
    ∃ a b c d e f g h, leBytes 8 v = [a, b, c, d, e, f, g, h]
      ∧ leWord 64 [a, b, c, d, e, f, g, h] = v := by
  have hlen : (leBytes 8 v).length = 8 := length_leBytes 8 v
  obtain ⟨a, b, c, d, e, f, g, h, heq⟩ :
      ∃ a b c d e f g h, leBytes 8 v = [a, b, c, d, e, f, g, h] := by
    match leBytes 8 v, hlen with
    | [a, b, c, d, e, f, g, h], _ => exact ⟨a, b, c, d, e, f, g, h, rfl⟩
  refine ⟨a, b, c, d, e, f, g, h, heq, ?_⟩
  rw [← heq]
  exact leWord_leBytes (n := 8) v

/-- The decoder reads back the fields of a block. -/
theorem decodeInstruction_bytes {d : DecodedInstruction} {bs : List UInt8}
    (h : d.bytes = .ok bs) : decodeInstruction bs = .ok d := by
  obtain ⟨op, dt, st, dp, sp⟩ := d
  simp only [DecodedInstruction.bytes, bind_eq_ok] at h
  obtain ⟨opcode, hop, heq⟩ := h
  cases heq
  obtain ⟨hdec, hvalid⟩ := decodeOpcode_encodeOpcode hop
  obtain ⟨d0, d1, d2, d3, d4, d5, d6, d7, hd, hdv⟩ := leBytes_eight dp
  obtain ⟨s0, s1, s2, s3, s4, s5, s6, s7, hs, hsv⟩ := leBytes_eight sp
  simp only [decodeInstruction, bind_eq_ok, reject_eq_ok, exists_const, hd, hs]
  simp [kInstructionSize, hdec, hvalid, decodeOperandType_raw, readI64LittleEndian, hdv, hsv, pure,
    Except.pure]

/-- Eight bytes are the bytes of their word. -/
theorem leBytes_leWord_eight {bs : List UInt8} (h : bs.length = 8) :
    leBytes 8 (leWord 64 bs) = bs := by
  have := leBytes_leWord bs
  rw [h] at this
  exact this

/-- An accepted block is the block of its decoded fields. -/
theorem bytes_of_decodeInstruction {d : DecodedInstruction} {bs : List UInt8}
    (h : decodeInstruction bs = .ok d) : d.bytes = .ok bs := by
  simp only [decodeInstruction, bind_eq_ok, reject_eq_ok, exists_const, not_not, not_or] at h
  obtain ⟨hlen, h3, ⟨h20, h21, h22, h23⟩, hop, dt, hdt, st, hst, heq⟩ := h
  cases heq
  rw [kInstructionSize] at hlen
  have hpayload : ∀ offset, offset + 8 ≤ 24 →
      leBytes 8 (readI64LittleEndian bs offset) = (bs.drop offset).take 8 := by
    intro offset ho
    refine leBytes_leWord_eight ?_
    rw [List.length_take, List.length_drop]
    omega
  -- The 24 bytes, field by field.
  have hsplit : bs = bs.getD 0 0 :: bs.getD 1 0 :: bs.getD 2 0 :: bs.getD 3 0
      :: ((bs.drop 4).take 8 ++ ((bs.drop 12).take 8
        ++ [bs.getD 20 0, bs.getD 21 0, bs.getD 22 0, bs.getD 23 0])) := by
    have h20 : bs.drop 20 = [bs.getD 20 0, bs.getD 21 0, bs.getD 22 0, bs.getD 23 0] := by
      rw [drop_eq_getD_cons 20 (by omega), drop_eq_getD_cons 21 (by omega),
        drop_eq_getD_cons 22 (by omega), drop_eq_getD_cons 23 (by omega),
        List.drop_eq_nil_of_le (by omega)]
    rw [← h20, ← drop_eq_take_append bs 12 8, ← drop_eq_take_append bs 4 8,
      ← drop_eq_getD_cons 3 (by omega), ← drop_eq_getD_cons 2 (by omega),
      ← drop_eq_getD_cons 1 (by omega), ← drop_eq_getD_cons 0 (by omega), List.drop_zero]
  simp only [DecodedInstruction.bytes, encodeOpcode_of_decodeOpcode rfl hop, ok_bind,
    hpayload 4 (by omega), hpayload 12 (by omega)]
  rw [← raw_of_decodeOperandType hdt, ← raw_of_decodeOperandType hst]
  conv_rhs => rw [hsplit, h3, h20, h21, h22, h23]
  simp [pure, Except.pure]

/-! ## Encoded operands -/

/-- What an encoded operand says about the operand it came from. -/
def OperandEncodes (labels : LabelTable) (type : EncodedOperandType) (payload : Word) :
    Operand → Prop
  | .none => type = .None ∧ payload = 0
  | .register reg => type = .Register ∧ payload = BitVec.ofNat 64 (encodeRegister reg).toNat
  | .immediate value => type = .Immediate ∧ payload = value
  | .memoryAddress address => type = .MemoryAddress ∧ payload = address
  | .registerIndirectAddress reg =>
      type = .RegisterIndirectAddress ∧ payload = BitVec.ofNat 64 (encodeRegister reg).toNat
  | .label name => ∃ index, labels.lookup name = some index ∧ type = .CodeAddress
      ∧ payload = BitVec.ofNat 64 (24 * index)

/-- An operand that is encoded is encoded as it should be. -/
theorem operandEncodes_of_encodeOperand {operand : Operand} {labels : LabelTable}
    {encoded : EncodedOperand} (h : encodeOperand operand labels = .ok encoded) :
    OperandEncodes labels encoded.type encoded.payload operand := by
  cases operand with
  | label name =>
    simp only [encodeOperand] at h
    split at h
    · cases h
    · cases h
      exact ⟨_, ‹_›, rfl, by rw [Word.ofSize, kInstructionSize, Nat.mul_comm]⟩
  | none => cases h; exact ⟨rfl, rfl⟩
  | register reg => cases h; exact ⟨rfl, rfl⟩
  | immediate value => cases h; exact ⟨rfl, rfl⟩
  | memoryAddress address => cases h; exact ⟨rfl, rfl⟩
  | registerIndirectAddress reg => cases h; exact ⟨rfl, rfl⟩

/-- An encoded instruction is the block of its opcode and encoded operands. -/
theorem encodeInstruction_eq_ok {instruction : Instruction} {labels : LabelTable}
    {bs : List UInt8} (h : encodeInstruction instruction labels = .ok bs) :
    ∃ d : DecodedInstruction, d.bytes = .ok bs ∧ d.opcode = instruction.opcode
      ∧ OperandEncodes labels d.dst_type d.dst_payload instruction.dst
      ∧ OperandEncodes labels d.src_type d.src_payload instruction.src := by
  simp only [encodeInstruction, bind_eq_ok] at h
  obtain ⟨dst, hdst, src, hsrc, opcode, hop, heq⟩ := h
  refine ⟨⟨instruction.opcode, dst.type, src.type, dst.payload, src.payload⟩, ?_, rfl,
    operandEncodes_of_encodeOperand hdst, operandEncodes_of_encodeOperand hsrc⟩
  rw [DecodedInstruction.bytes, hop]
  exact heq

/-- The `i`-th 24-byte block of a code section. -/
def codeBlock (code : List UInt8) (i : ℕ) : List UInt8 := (code.drop (24 * i)).take 24

/-- A program is encoded block by block. -/
theorem encodeProgram_eq_ok {instructions : List Instruction} {labels : LabelTable}
    {code : List UInt8} (h : encodeProgram instructions labels = .ok code) :
    code.length = 24 * instructions.length
      ∧ ∀ i instruction, instructions[i]? = some instruction →
        encodeInstruction instruction labels = .ok (codeBlock code i) := by
  induction instructions generalizing code with
  | nil =>
    cases h
    simp
  | cons head rest ih =>
    simp only [encodeProgram, bind_eq_ok] at h
    obtain ⟨encoded, hhead, tail, hrest, heq⟩ := h
    cases heq
    obtain ⟨hlen, hblocks⟩ := ih hrest
    obtain ⟨d, hd, -⟩ := encodeInstruction_eq_ok hhead
    have h24 : encoded.length = 24 := length_bytes hd
    refine ⟨by rw [List.length_append, h24, hlen, List.length_cons]; omega, ?_⟩
    intro i instruction hi
    cases i with
    | zero =>
      cases hi
      rw [codeBlock, Nat.mul_zero, List.drop_zero, ← h24, List.take_left]
      exact hhead
    | succ i =>
      rw [codeBlock, show 24 * (i + 1) = encoded.length + 24 * i by omega,
        List.drop_append, List.drop_eq_nil_of_le (by omega), Nat.add_sub_cancel_left,
        List.nil_append]
      exact hblocks i instruction hi

/-! ## The trace instruction -/

namespace CPU

variable {W : Type}

/-- The binary engine fetches what the bytes at PC decode to. -/
theorem fetchBinary_of_readBytes {m : Setup W} {core : Core W} {bs : List UInt8}
    {d : DecodedInstruction} (hpc : isBinaryPcInCode m core.state.pc = true)
    (hread : core.state.memory.readBytes core.state.pc kInstructionSize = .ok bs)
    (hd : decodeInstruction bs = .ok d) : fetchBinary m core = (.ok d, core) := by
  simp [fetchBinary, Exec.bind_apply, Exec.require, hpc, hread, hd]

theorem decodeBinaryRegister_encodeRegister (reg : RegisterName) :
    decodeBinaryRegister (BitVec.ofNat 64 (encodeRegister reg).toNat) = .ok reg := by
  cases reg <;> rfl

/-- The operands the trace shows as they were written. -/
def TraceableOperand : Operand → Prop
  | .label _ => False
  | .memoryAddress address => address.toNat < 2 ^ 63
  | _ => True

/-- The trace shows the operand that was encoded. -/
theorem traceOperandFromEncoded_of_encodes {m : Setup W} {labels : LabelTable} {operand : Operand}
    {type : EncodedOperandType} {payload : Word} (h : OperandEncodes labels type payload operand)
    (ht : TraceableOperand operand) : traceOperandFromEncoded m type payload = .ok operand := by
  cases operand with
  | none =>
    obtain ⟨rfl, rfl⟩ := h
    rfl
  | register reg =>
    obtain ⟨rfl, rfl⟩ := h
    rw [traceOperandFromEncoded, decodeBinaryRegister_encodeRegister]
    rfl
  | immediate value =>
    obtain ⟨rfl, rfl⟩ := h
    rfl
  | memoryAddress address =>
    obtain ⟨rfl, rfl⟩ := h
    have hnonneg : ¬ payload.toInt < 0 := by
      rw [BitVec.toInt_neg_iff]
      exact Nat.not_le.mpr (by simp only [TraceableOperand] at ht; omega)
    rw [traceOperandFromEncoded, reject_of_not hnonneg]
    rfl
  | registerIndirectAddress reg =>
    obtain ⟨rfl, rfl⟩ := h
    rw [traceOperandFromEncoded, decodeBinaryRegister_encodeRegister]
    rfl
  | label name => exact ht.elim

/-- The instructions the trace rebuilds: no label, no source without a destination, and memory
addresses that are not negative as signed words. -/
structure Traceable (instruction : Instruction) : Prop where
  dst : TraceableOperand instruction.dst
  src : TraceableOperand instruction.src
  dst_present : instruction.src ≠ .none → instruction.dst ≠ .none

/-- The trace shows the instruction that was encoded. -/
theorem traceInstruction_of_encodes {m : Setup W} {labels : LabelTable} {d : DecodedInstruction}
    {instruction : Instruction} (hop : d.opcode = instruction.opcode)
    (hdst : OperandEncodes labels d.dst_type d.dst_payload instruction.dst)
    (hsrc : OperandEncodes labels d.src_type d.src_payload instruction.src)
    (ht : Traceable instruction) : traceInstruction m d = .ok instruction := by
  obtain ⟨opcode, dst, src⟩ := instruction
  simp only at hop hdst hsrc
  rw [traceInstruction, traceOperandFromEncoded_of_encodes hdst ht.dst,
    traceOperandFromEncoded_of_encodes hsrc ht.src, hop]
  simp only [ok_bind]
  have hpresent := ht.dst_present
  simp only at hpresent
  split_ifs with h1 h2
  · subst h1
    by_cases hs : src = .none
    · rw [hs]
      rfl
    · exact absurd rfl (hpresent hs)
  · rw [h2]
    rfl
  · rfl

end CPU

/-- Encoding is lossless: blocks decode to their instructions, accepted blocks are determined by
what they decode to, and the CPU's trace rebuilds the instruction of a block. -/
theorem encoding_lossless :
    (∀ instructions labels code, encodeProgram instructions labels = .ok code →
      code.length = 24 * instructions.length
      ∧ ∀ i instruction, instructions[i]? = some instruction →
        (∃ d, decodeInstruction (codeBlock code i) = .ok d ∧ d.opcode = instruction.opcode
          ∧ OperandEncodes labels d.dst_type d.dst_payload instruction.dst
          ∧ OperandEncodes labels d.src_type d.src_payload instruction.src)
        ∧ (CPU.Traceable instruction → ∀ (W : Type) (m : Setup W) (core : Core W),
          CPU.isBinaryPcInCode m core.state.pc = true →
          core.state.memory.readBytes core.state.pc kInstructionSize = .ok (codeBlock code i) →
          CPU.traceInstructionForCurrentBinaryPc m core = (.ok instruction, core)))
    ∧ (∀ bs d, decodeInstruction bs = .ok d → d.bytes = .ok bs)
    ∧ ∀ bs bs' d, decodeInstruction bs = .ok d → decodeInstruction bs' = .ok d → bs = bs' := by
  refine ⟨?_, fun bs d => bytes_of_decodeInstruction, ?_⟩
  · intro instructions labels code h
    obtain ⟨hlen, hblocks⟩ := encodeProgram_eq_ok h
    refine ⟨hlen, ?_⟩
    intro i instruction hi
    obtain ⟨d, hbytes, hop, hdst, hsrc⟩ := encodeInstruction_eq_ok (hblocks i instruction hi)
    have hdecode := decodeInstruction_bytes hbytes
    refine ⟨⟨d, hdecode, hop, hdst, hsrc⟩, ?_⟩
    intro ht W m core hpc hread
    rw [CPU.traceInstructionForCurrentBinaryPc,
      Exec.bind_of_ok (CPU.fetchBinary_of_readBytes hpc hread hdecode), Exec.lift_apply,
      CPU.traceInstruction_of_encodes hop hdst hsrc ht]
  · intro bs bs' d h h'
    have heq := (bytes_of_decodeInstruction h).symm.trans (bytes_of_decodeInstruction h')
    exact Except.ok.inj heq

/-- A two-instruction loop. -/
def loopProgram : List Instruction :=
  [⟨.ADD, .register .R3, .immediate (-1)⟩, ⟨.JMP, .label "top", .none⟩]

/-- A jump to a label and a negative number. -/
theorem encoding_lossless_loopProgram :
    ∃ code, encodeProgram loopProgram [("top", 0)] = .ok code ∧ code.length = 48
      ∧ (∃ d, decodeInstruction (codeBlock code 1) = .ok d ∧ d.opcode = .JMP
        ∧ d.dst_type = .CodeAddress ∧ d.dst_payload = 0)
      ∧ ∃ d, decodeInstruction (codeBlock code 0) = .ok d ∧ d.src_payload = -1 := by
  obtain ⟨code, hcode⟩ : ∃ code, encodeProgram loopProgram [("top", 0)] = .ok code := ⟨_, rfl⟩
  obtain ⟨hlen, hblocks⟩ := encoding_lossless.1 _ _ _ hcode
  obtain ⟨⟨d, hd, hop, hdst, -⟩, -⟩ := hblocks 1 _ rfl
  obtain ⟨index, hindex, htype, hpayload⟩ := hdst
  cases hindex
  obtain ⟨⟨d', hd', -, -, hsrc⟩, -⟩ := hblocks 0 _ rfl
  exact ⟨code, hcode, hlen, ⟨d, hd, hop, htype, hpayload⟩, d', hd', hsrc.2⟩

end ZeroCpu
