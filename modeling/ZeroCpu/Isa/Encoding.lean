import ZeroCpu.Core.Alu

/-!
# Instructions and their 24-byte encoding

Reference: `src/isa/Opcode.cpp`, `src/isa/Operand.cpp`, `src/isa/Instruction.cpp`,
`src/isa/InstructionEncoder.cpp`, `src/isa/InstructionDecoder.cpp`.

An `Operand` of the source is a tag with one meaningful payload, modelled as an inductive type. A
memory address is a `std::size_t` that the encoder casts to `std::int64_t`, so it is kept as a
64-bit word here.
-/

namespace ZeroCpu

open Library

/-- `Opcode`. -/
inductive Opcode where
  | MOV | LOAD | STORE
  | ADD | SUB | MUL | DIV
  | AND | OR | XOR | NOT
  | CMP | TEST
  | JMP | JE | JNE | JG | JL
  | PUSH | POP
  | CALL | RET | IRET | EI | DI | INT
  | NOP | HALT
  | Invalid
deriving DecidableEq, Repr

/-- `opcodeToString`. -/
def Opcode.name : Opcode → Str
  | .MOV => "MOV"
  | .LOAD => "LOAD"
  | .STORE => "STORE"
  | .ADD => "ADD"
  | .SUB => "SUB"
  | .MUL => "MUL"
  | .DIV => "DIV"
  | .AND => "AND"
  | .OR => "OR"
  | .XOR => "XOR"
  | .NOT => "NOT"
  | .CMP => "CMP"
  | .TEST => "TEST"
  | .JMP => "JMP"
  | .JE => "JE"
  | .JNE => "JNE"
  | .JG => "JG"
  | .JL => "JL"
  | .PUSH => "PUSH"
  | .POP => "POP"
  | .CALL => "CALL"
  | .RET => "RET"
  | .IRET => "IRET"
  | .EI => "EI"
  | .DI => "DI"
  | .INT => "INT"
  | .NOP => "NOP"
  | .HALT => "HALT"
  | .Invalid => "INVALID"

/-- `Operand`: its `OperandType` with the payload that type gives access to. -/
inductive Operand where
  | none
  | register (reg : RegisterName)
  | immediate (value : Word)
  | memoryAddress (address : Word)
  | registerIndirectAddress (reg : RegisterName)
  | label (name : Str)
deriving DecidableEq

/-- `Instruction`. -/
structure Instruction where
  opcode : Opcode
  dst : Operand := .none
  src : Operand := .none
deriving DecidableEq

/-- `LabelTable`: an `unordered_map` from names to instruction indices. -/
abbrev LabelTable : Type := List (Str × ℕ)

/-- `binary::kInstructionSize`. -/
def kInstructionSize : ℕ := 24

/-- `EncodedOperandType`. -/
inductive EncodedOperandType where
  | None
  | Register
  | Immediate
  | MemoryAddress
  | CodeAddress
  | RegisterIndirectAddress
deriving DecidableEq, Repr

/-- The enumerator's `std::uint8_t` value. -/
def EncodedOperandType.raw : EncodedOperandType → UInt8
  | .None => 0x00
  | .Register => 0x01
  | .Immediate => 0x02
  | .MemoryAddress => 0x03
  | .CodeAddress => 0x04
  | .RegisterIndirectAddress => 0x05

/-- `DecodedInstruction`. -/
structure DecodedInstruction where
  opcode : Opcode
  dst_type : EncodedOperandType
  src_type : EncodedOperandType
  dst_payload : Word
  src_payload : Word
deriving DecidableEq

/-! ## The encoder -/

/-- The byte of an opcode. -/
def encodeOpcode : Opcode → Except Str UInt8
  | .NOP => .ok 0x00
  | .HALT => .ok 0x01
  | .MOV => .ok 0x10
  | .LOAD => .ok 0x11
  | .STORE => .ok 0x12
  | .ADD => .ok 0x20
  | .SUB => .ok 0x21
  | .MUL => .ok 0x22
  | .DIV => .ok 0x23
  | .CMP => .ok 0x30
  | .TEST => .ok 0x31
  | .JMP => .ok 0x40
  | .JE => .ok 0x41
  | .JNE => .ok 0x42
  | .JG => .ok 0x43
  | .JL => .ok 0x44
  | .PUSH => .ok 0x50
  | .POP => .ok 0x51
  | .CALL => .ok 0x52
  | .RET => .ok 0x53
  | .IRET => .ok 0x54
  | .EI => .ok 0x70
  | .DI => .ok 0x71
  | .INT => .ok 0x72
  | .AND => .ok 0x60
  | .OR => .ok 0x61
  | .XOR => .ok 0x62
  | .NOT => .ok 0x63
  | .Invalid => .error "Cannot encode invalid opcode"

namespace InstructionEncoder

/-- `InstructionEncoder::EncodedOperand`. -/
structure EncodedOperand where
  type : EncodedOperandType
  payload : Word
deriving DecidableEq

/-- The byte of a register. -/
def encodeRegister : RegisterName → UInt8
  | .R0 => 0
  | .R1 => 1
  | .R2 => 2
  | .R3 => 3
  | .R4 => 4
  | .R5 => 5
  | .R6 => 6
  | .R7 => 7

/-- The type byte and payload of an operand; a label becomes its code offset. -/
def encodeOperand (operand : Operand) (labels : LabelTable) : Except Str EncodedOperand :=
  match operand with
  | .none => .ok ⟨.None, 0⟩
  | .register reg => .ok ⟨.Register, Word.ofSize (encodeRegister reg).toNat⟩
  | .immediate value => .ok ⟨.Immediate, value⟩
  | .memoryAddress address => .ok ⟨.MemoryAddress, address⟩
  | .registerIndirectAddress reg =>
      .ok ⟨.RegisterIndirectAddress, Word.ofSize (encodeRegister reg).toNat⟩
  | .label name =>
      match labels.lookup name with
      | none => .error ("Undefined label: " ++ name)
      | some instructionIndex =>
          .ok ⟨.CodeAddress, Word.ofSize (instructionIndex * kInstructionSize)⟩

/-- `InstructionEncoder::encodeInstruction`: opcode, two operand types, a reserved byte, two
little-endian payloads and four reserved bytes. -/
def encodeInstruction (instruction : Instruction) (labels : LabelTable) :
    Except Str (List UInt8) := do
  let dst ← encodeOperand instruction.dst labels
  let src ← encodeOperand instruction.src labels
  let opcode ← encodeOpcode instruction.opcode
  pure ([opcode, dst.type.raw, src.type.raw, 0x00]
    ++ leBytes 8 dst.payload ++ leBytes 8 src.payload ++ [0, 0, 0, 0])

/-- Every instruction in turn. -/
def encodeProgram (instructions : List Instruction) (labels : LabelTable) :
    Except Str (List UInt8) :=
  match instructions with
  | [] => .ok []
  | instruction :: rest => do
      let encoded ← encodeInstruction instruction labels
      let tail ← encodeProgram rest labels
      pure (encoded ++ tail)

end InstructionEncoder

/-! ## The decoder -/

/-- The opcode of a byte, `Invalid` where there is none. -/
def decodeOpcode (byte : UInt8) : Opcode :=
  match byte.toNat with
  | 0x00 => .NOP
  | 0x01 => .HALT
  | 0x10 => .MOV
  | 0x11 => .LOAD
  | 0x12 => .STORE
  | 0x20 => .ADD
  | 0x21 => .SUB
  | 0x22 => .MUL
  | 0x23 => .DIV
  | 0x30 => .CMP
  | 0x31 => .TEST
  | 0x40 => .JMP
  | 0x41 => .JE
  | 0x42 => .JNE
  | 0x43 => .JG
  | 0x44 => .JL
  | 0x50 => .PUSH
  | 0x51 => .POP
  | 0x52 => .CALL
  | 0x53 => .RET
  | 0x54 => .IRET
  | 0x70 => .EI
  | 0x71 => .DI
  | 0x72 => .INT
  | 0x60 => .AND
  | 0x61 => .OR
  | 0x62 => .XOR
  | 0x63 => .NOT
  | _ => .Invalid

namespace InstructionDecoder

/-- The operand type of a byte. -/
def decodeOperandType (byte : UInt8) : Except Str EncodedOperandType :=
  match byte.toNat with
  | 0x00 => .ok .None
  | 0x01 => .ok .Register
  | 0x02 => .ok .Immediate
  | 0x03 => .ok .MemoryAddress
  | 0x04 => .ok .CodeAddress
  | 0x05 => .ok .RegisterIndirectAddress
  | _ => .error "Invalid encoded operand type"

/-- `readI64LittleEndian`; its range check cannot fail on the 24 bytes it is called with. -/
def readI64LittleEndian (bytes : List UInt8) (offset : ℕ) : Word :=
  leWord 64 ((bytes.drop offset).take 8)

/-- `decodeInstruction`. -/
def decodeInstruction (bytes : List UInt8) : Except Str DecodedInstruction := do
  reject (bytes.length ≠ kInstructionSize) "Invalid encoded instruction size"
  reject (bytes.getD 3 0 ≠ 0x00) "Instruction reserved byte must be zero"
  reject (bytes.getD 20 0 ≠ 0x00 ∨ bytes.getD 21 0 ≠ 0x00 ∨ bytes.getD 22 0 ≠ 0x00
    ∨ bytes.getD 23 0 ≠ 0x00) "Instruction reserved tail bytes must be zero"
  let opcode := decodeOpcode (bytes.getD 0 0)
  reject (opcode = .Invalid) "Invalid opcode byte"
  let dst_type ← decodeOperandType (bytes.getD 1 0)
  let src_type ← decodeOperandType (bytes.getD 2 0)
  pure {
    opcode := opcode
    dst_type := dst_type
    src_type := src_type
    dst_payload := readI64LittleEndian bytes 4
    src_payload := readI64LittleEndian bytes 12 }

end InstructionDecoder

end ZeroCpu
