import ZeroCpu.Core.Cpu

/-!
# The two execution engines and `CPU::step`

Reference: `src/core/CPU.cpp`.

The CPU executes either a list of `Instruction`s with a label table (`execute`) or the encoded
instructions in its own memory (`executeBinaryInstruction`). The two engines are separate code in
the source and stay separate here.
-/

namespace ZeroCpu

open Library

variable {W : Type}

namespace CPU

/-! ## Interpreted instructions -/

/-- `CPU::requireNoOperand`. -/
def requireNoOperand (instruction : Instruction) : Op W Unit :=
  Exec.require (instruction.dst == .none && instruction.src == .none)
    "Instruction requires no operand"

/-- `CPU::requireSingleOperand`. -/
def requireSingleOperand (instruction : Instruction) : Op W Unit :=
  Exec.require (instruction.dst != .none && instruction.src == .none)
    "Instruction requires one operand"

/-- `CPU::requireTwoOperands`. -/
def requireTwoOperands (instruction : Instruction) : Op W Unit :=
  Exec.require (instruction.dst != .none && instruction.src != .none)
    "Instruction requires two operands"

/-- `CPU::requireRegisterDestination`. -/
def requireRegisterDestination : Operand → Op W Unit
  | .register _ => pure ()
  | _ => Exec.throw "Destination must be register"

/-- `CPU::readMemoryAddress`. -/
def readMemoryAddress : Operand → Op W ℕ
  | .memoryAddress address => pure address.toNat
  | .registerIndirectAddress reg => do
      let core ← Exec.get
      Exec.lift (checkedSize (core.state.registers reg)
        "Negative register-indirect memory address")
  | _ => Exec.throw "Operand must be memory address"

/-- `CPU::readOperandValue`. -/
def readOperandValue (m : Setup W) (operand : Operand) : Op W Word :=
  match operand with
  | .register reg => Exec.gets fun core => core.state.registers reg
  | .immediate value => pure value
  | .memoryAddress _ | .registerIndirectAddress _ => do
      let address ← readMemoryAddress operand
      readDataMemory m address
  | _ => Exec.throw "Operand cannot be read as a value"

/-- `CPU::writeRegisterDestination`. -/
def writeRegisterDestination (operand : Operand) (value : Word) : Op W Unit :=
  match operand with
  | .register reg => setRegister reg value
  | _ => Exec.throw "Destination must be register"

/-- `CPU::resolveLabelAddress`. -/
def resolveLabelAddress (m : Setup W) : Operand → Except Str ℕ
  | .label name =>
      match m.labels.lookup name with
      | some index => .ok index
      | none => .error ("Undefined label: " ++ name)
  | _ => .error "Jump target must be label"

/-- `CPU::advancePcUnlessHalted`. -/
def advancePcUnlessHalted : Op W Unit := modifyState fun state =>
  if !state.halted then { state with pc := state.pc + 1 } else state

/-- `CPU::executeNop`. -/
def executeNop (instruction : Instruction) : Op W Unit := do
  requireNoOperand instruction
  advancePcUnlessHalted

/-- `CPU::executeHalt`. -/
def executeHalt (instruction : Instruction) : Op W Unit := do
  requireNoOperand instruction
  modifyState fun state => { state with halted := true }

/-- `CPU::executeMov`. -/
def executeMov (m : Setup W) (instruction : Instruction) : Op W Unit := do
  requireTwoOperands instruction
  requireRegisterDestination instruction.dst
  let value ← readOperandValue m instruction.src
  writeRegisterDestination instruction.dst value
  modifyFlags fun flags => flags.updateZeroAndSign value
  advancePcUnlessHalted

/-- `CPU::executeLoad`. -/
def executeLoad (m : Setup W) (instruction : Instruction) : Op W Unit := do
  requireTwoOperands instruction
  requireRegisterDestination instruction.dst
  let address ← readMemoryAddress instruction.src
  let value ← readDataMemory m address
  writeRegisterDestination instruction.dst value
  modifyFlags fun flags => flags.updateZeroAndSign value
  advancePcUnlessHalted

/-- `CPU::executeStore`. -/
def executeStore (m : Setup W) (instruction : Instruction) : Op W Unit := do
  requireTwoOperands instruction
  let address ← readMemoryAddress instruction.dst
  let value ← readOperandValue m instruction.src
  writeDataMemory m address value
  modifyFlags fun flags => flags.updateZeroAndSign value
  advancePcUnlessHalted

/-- The shared body of `executeAdd` .. `executeXor`. -/
def executeALU (op : Word → Word → Except Str ALUResult) (m : Setup W)
    (instruction : Instruction) : Op W Unit := do
  requireTwoOperands instruction
  requireRegisterDestination instruction.dst
  let lhs ← readOperandValue m instruction.dst
  let rhs ← readOperandValue m instruction.src
  let result ← Exec.lift (op lhs rhs)
  writeRegisterDestination instruction.dst result.value
  modifyFlags fun flags => applyALUResultToFlags flags result
  advancePcUnlessHalted

def executeAdd : Setup W → Instruction → Op W Unit := executeALU fun lhs rhs => .ok (ALU.add lhs rhs)
def executeSub : Setup W → Instruction → Op W Unit := executeALU fun lhs rhs => .ok (ALU.sub lhs rhs)
def executeMul [LongDouble] : Setup W → Instruction → Op W Unit :=
  executeALU fun lhs rhs => .ok (ALU.mul lhs rhs)
def executeDiv : Setup W → Instruction → Op W Unit := executeALU ALU.div
def executeAnd : Setup W → Instruction → Op W Unit :=
  executeALU fun lhs rhs => .ok (ALU.bitAnd lhs rhs)
def executeOr : Setup W → Instruction → Op W Unit :=
  executeALU fun lhs rhs => .ok (ALU.bitOr lhs rhs)
def executeXor : Setup W → Instruction → Op W Unit :=
  executeALU fun lhs rhs => .ok (ALU.bitXor lhs rhs)

/-- `CPU::executeNot`. -/
def executeNot (m : Setup W) (instruction : Instruction) : Op W Unit := do
  requireSingleOperand instruction
  requireRegisterDestination instruction.dst
  let value ← readOperandValue m instruction.dst
  let result := ALU.bitNot value
  writeRegisterDestination instruction.dst result.value
  modifyFlags fun flags => applyALUResultToFlags flags result
  advancePcUnlessHalted

/-- The shared body of `executeCmp` and of the `TEST` case. -/
def executeComparison (op : Word → Word → ALUResult) (m : Setup W) (instruction : Instruction) :
    Op W Unit := do
  requireTwoOperands instruction
  let lhs ← readOperandValue m instruction.dst
  let rhs ← readOperandValue m instruction.src
  modifyFlags fun flags => applyALUResultToFlags flags (op lhs rhs)
  advancePcUnlessHalted

def executeCmp : Setup W → Instruction → Op W Unit := executeComparison ALU.compare
def executeTest : Setup W → Instruction → Op W Unit := executeComparison ALU.test

/-- `CPU::executeJmp`. -/
def executeJmp (m : Setup W) (instruction : Instruction) : Op W Unit := do
  requireSingleOperand instruction
  let target ← Exec.lift (resolveLabelAddress m instruction.dst)
  setPcForExecution m target

/-- The shared body of `executeJe` .. `executeJl`: the target is resolved only when the branch is
taken. -/
def executeBranch (taken : Flags → Bool) (m : Setup W) (instruction : Instruction) : Op W Unit := do
  requireSingleOperand instruction
  let core ← Exec.get
  if taken core.state.flags then
    let target ← Exec.lift (resolveLabelAddress m instruction.dst)
    setPcForExecution m target
  else
    advancePcUnlessHalted

def executeJe : Setup W → Instruction → Op W Unit := executeBranch fun flags => flags.zero
def executeJne : Setup W → Instruction → Op W Unit := executeBranch fun flags => !flags.zero
def executeJg : Setup W → Instruction → Op W Unit := executeBranch signedGreaterThanFromFlags
def executeJl : Setup W → Instruction → Op W Unit := executeBranch signedLessThanFromFlags

/-- `CPU::executePush`. -/
def executePush (m : Setup W) (instruction : Instruction) : Op W Unit := do
  requireSingleOperand instruction
  let value ← readOperandValue m instruction.dst
  pushValue value
  advancePcUnlessHalted

/-- `CPU::executePop`. -/
def executePop (instruction : Instruction) : Op W Unit := do
  requireSingleOperand instruction
  requireRegisterDestination instruction.dst
  let value ← popValue
  writeRegisterDestination instruction.dst value
  modifyFlags fun flags => flags.updateZeroAndSign value
  advancePcUnlessHalted

/-- `CPU::executeCall`. -/
def executeCall (m : Setup W) (instruction : Instruction) : Op W Unit := do
  requireSingleOperand instruction
  let target ← Exec.lift (resolveLabelAddress m instruction.dst)
  let core ← Exec.get
  let returnAddress := core.state.pc + 1
  Exec.lift (requireExecutionAddress m target core.state.privilegeLevel)
  Exec.lift (requireExecutionAddress m returnAddress core.state.privilegeLevel)
  pushValue (Word.ofSize returnAddress)
  setPc target

/-- `CPU::executeRet`. -/
def executeRet (m : Setup W) (instruction : Instruction) : Op W Unit := do
  requireNoOperand instruction
  let returnAddressValue ← peekValue
  let returnAddress ← Exec.lift (checkedReturnAddress returnAddressValue "Negative return address")
  let core ← Exec.get
  Exec.lift (requireExecutionAddress m returnAddress core.state.privilegeLevel)
  let _ ← popValue
  setPc returnAddress

/-- `CPU::executeIret`. -/
def executeIret (m : Setup W) (instruction : Instruction) : Op W Unit := do
  requireNoOperand instruction
  restoreInterruptFrame m "Negative interrupt return address" false

/-- `interrupt_controller_->setGlobalEnabled(enabled)`, or the given error without a controller. -/
def setInterruptsEnabled (m : Setup W) (enabled : Bool) (missing : Str) : Op W Unit :=
  match m.interruptController with
  | none => Exec.throw missing
  | some r => Exec.modify fun core =>
      { core with world := r.set ((r.get core.world).setGlobalEnabled enabled) core.world }

/-- `CPU::executeEi`. -/
def executeEi (m : Setup W) (instruction : Instruction) : Op W Unit := do
  requireNoOperand instruction
  setInterruptsEnabled m true "EI requires interrupt controller"
  advancePcUnlessHalted

/-- `CPU::executeDi`. -/
def executeDi (m : Setup W) (instruction : Instruction) : Op W Unit := do
  requireNoOperand instruction
  setInterruptsEnabled m false "DI requires interrupt controller"
  advancePcUnlessHalted

/-- Enter the handler that the controller has for `vector`, once `handlerOk` accepts it. -/
def enterVectorHandler (r : Ref W InterruptController) (vector : UInt8) (returnAddress : ℕ)
    (handlerOk : ℕ → Bool) (handlerError : Str) : Op W Unit := do
  let core ← Exec.get
  let handlerAddress ← Exec.lift ((r.get core.world).vectorHandler vector)
  Exec.require (handlerOk handlerAddress) handlerError
  pushInterruptFrame returnAddress
  setRegister .R0 (Word.ofSize vector.toNat)
  setPc handlerAddress

/-- The vector an `INT` operand names. -/
def interruptVector (vectorValue : Word) : Except Str UInt8 :=
  if vectorValue.toInt < 0 ∨ vectorValue.toInt > 255 then
    .error "INT vector must be in range 0..255"
  else .ok (UInt8.ofNat vectorValue.toNat)

/-- `CPU::executeInt`. -/
def executeInt (m : Setup W) (instruction : Instruction) : Op W Unit := do
  requireSingleOperand instruction
  match m.interruptController with
  | none => Exec.throw "INT requires interrupt controller"
  | some r => do
      let vectorValue ← readOperandValue m instruction.dst
      let vector ← Exec.lift (interruptVector vectorValue)
      let core ← Exec.get
      let returnAddress := core.state.pc + 1
      let serviced ← serviceHostSoftwareInterrupt m vector returnAddress
      if serviced then pure ()
      else
        enterVectorHandler r vector returnAddress (fun handler => decide (handler < m.program.length))
          "INT handler is outside loaded program"

/-- `CPU::execute`. -/
def execute [LongDouble] (m : Setup W) (instruction : Instruction) : Op W Unit := do
  requireInstructionPrivilege instruction.opcode
  match instruction.opcode with
  | .NOP => executeNop instruction
  | .HALT => executeHalt instruction
  | .MOV => executeMov m instruction
  | .LOAD => executeLoad m instruction
  | .STORE => executeStore m instruction
  | .ADD => executeAdd m instruction
  | .SUB => executeSub m instruction
  | .MUL => executeMul m instruction
  | .DIV => executeDiv m instruction
  | .CMP => executeCmp m instruction
  | .JMP => executeJmp m instruction
  | .JE => executeJe m instruction
  | .JNE => executeJne m instruction
  | .JG => executeJg m instruction
  | .JL => executeJl m instruction
  | .PUSH => executePush m instruction
  | .POP => executePop instruction
  | .CALL => executeCall m instruction
  | .RET => executeRet m instruction
  | .IRET => executeIret m instruction
  | .EI => executeEi m instruction
  | .DI => executeDi m instruction
  | .INT => executeInt m instruction
  | .AND => executeAnd m instruction
  | .OR => executeOr m instruction
  | .XOR => executeXor m instruction
  | .NOT => executeNot m instruction
  | .TEST => executeTest m instruction
  | .Invalid => Exec.throw "Invalid opcode"

/-! ## Encoded instructions -/

/-- `CPU::decodeBinaryRegister`. -/
def decodeBinaryRegister (payload : Word) : Except Str RegisterName :=
  match payload.toNat with
  | 0 => .ok .R0
  | 1 => .ok .R1
  | 2 => .ok .R2
  | 3 => .ok .R3
  | 4 => .ok .R4
  | 5 => .ok .R5
  | 6 => .ok .R6
  | 7 => .ok .R7
  | _ => .error "Invalid binary register payload"

/-- `CPU::requireNoBinaryOperands`. -/
def requireNoBinaryOperands (instruction : DecodedInstruction) : Op W Unit :=
  Exec.require (instruction.dst_type == .None && instruction.src_type == .None
    && instruction.dst_payload == 0 && instruction.src_payload == 0)
    "Binary instruction requires no operands"

/-- `CPU::requireSingleBinaryOperand`. -/
def requireSingleBinaryOperand (instruction : DecodedInstruction) : Op W Unit :=
  Exec.require (instruction.dst_type != .None && instruction.src_type == .None
    && instruction.src_payload == 0)
    "Binary instruction requires one operand"

/-- `CPU::requireTwoBinaryOperands`. -/
def requireTwoBinaryOperands (instruction : DecodedInstruction) : Op W Unit :=
  Exec.require (instruction.dst_type != .None && instruction.src_type != .None)
    "Binary instruction requires two operands"

/-- The register a binary destination operand names. -/
def binaryRegisterDestination (type : EncodedOperandType) (payload : Word) :
    Except Str RegisterName :=
  if type ≠ .Register then .error "Binary destination must be register"
  else decodeBinaryRegister payload

/-- `CPU::requireBinaryRegisterDestination`. -/
def requireBinaryRegisterDestination (type : EncodedOperandType) (payload : Word) : Op W Unit := do
  let _ ← Exec.lift (binaryRegisterDestination type payload)

/-- `CPU::readBinaryMemoryAddress`. -/
def readBinaryMemoryAddress (type : EncodedOperandType) (payload : Word) : Op W ℕ :=
  match type with
  | .MemoryAddress => Exec.lift (checkedSize payload "Negative binary memory address")
  | .RegisterIndirectAddress => do
      let baseRegister ← Exec.lift (decodeBinaryRegister payload)
      let core ← Exec.get
      Exec.lift (checkedSize (core.state.registers baseRegister)
        "Negative binary register-indirect memory address")
  | _ => Exec.throw "Binary operand must be memory address"

/-- `CPU::readBinaryOperandValue`. -/
def readBinaryOperandValue (m : Setup W) (type : EncodedOperandType) (payload : Word) :
    Op W Word :=
  match type with
  | .Register => do
      let reg ← Exec.lift (decodeBinaryRegister payload)
      Exec.gets fun core => core.state.registers reg
  | .Immediate => pure payload
  | .MemoryAddress | .RegisterIndirectAddress => do
      let address ← readBinaryMemoryAddress type payload
      readDataMemory m address
  | _ => Exec.throw "Binary operand cannot be read as a value"

/-- `CPU::writeBinaryRegisterDestination`. -/
def writeBinaryRegisterDestination (type : EncodedOperandType) (payload value : Word) :
    Op W Unit := do
  let reg ← Exec.lift (binaryRegisterDestination type payload)
  setRegister reg value

/-- `CPU::readBinaryCodeAddress`. -/
def readBinaryCodeAddress (m : Setup W) (type : EncodedOperandType) (payload : Word) :
    Except Str ℕ := do
  reject (type ≠ .CodeAddress) "Binary operand must be code address"
  let offset ← checkedSize payload "Negative binary code address"
  let target := m.binaryCodeBase + offset
  reject (¬ isBinaryPcInCode m target) "Binary code target is outside loaded code section"
  pure target

/-- `CPU::advanceBinaryPcUnlessHalted`. -/
def advanceBinaryPcUnlessHalted : Op W Unit := modifyState fun state =>
  if !state.halted then { state with pc := state.pc + kInstructionSize } else state

/-- The shared body of the `ADD` .. `XOR` cases. -/
def executeBinaryALU (op : Word → Word → Except Str ALUResult) (m : Setup W)
    (instruction : DecodedInstruction) : Op W Unit := do
  requireTwoBinaryOperands instruction
  requireBinaryRegisterDestination instruction.dst_type instruction.dst_payload
  let lhs ← readBinaryOperandValue m instruction.dst_type instruction.dst_payload
  let rhs ← readBinaryOperandValue m instruction.src_type instruction.src_payload
  let result ← Exec.lift (op lhs rhs)
  writeBinaryRegisterDestination instruction.dst_type instruction.dst_payload result.value
  modifyFlags fun flags => applyALUResultToFlags flags result
  advanceBinaryPcUnlessHalted

/-- The shared body of the `CMP` and `TEST` cases. -/
def executeBinaryComparison (op : Word → Word → ALUResult) (m : Setup W)
    (instruction : DecodedInstruction) : Op W Unit := do
  requireTwoBinaryOperands instruction
  let lhs ← readBinaryOperandValue m instruction.dst_type instruction.dst_payload
  let rhs ← readBinaryOperandValue m instruction.src_type instruction.src_payload
  modifyFlags fun flags => applyALUResultToFlags flags (op lhs rhs)
  advanceBinaryPcUnlessHalted

/-- The shared body of the `JE` .. `JL` cases. -/
def executeBinaryBranch (taken : Flags → Bool) (m : Setup W) (instruction : DecodedInstruction) :
    Op W Unit := do
  requireSingleBinaryOperand instruction
  let core ← Exec.get
  if taken core.state.flags then
    let target ← Exec.lift
      (readBinaryCodeAddress m instruction.dst_type instruction.dst_payload)
    setPcForExecution m target
  else
    advanceBinaryPcUnlessHalted

/-- `CPU::executeBinaryInstruction`. -/
def executeBinaryInstruction [LongDouble] (m : Setup W) (instruction : DecodedInstruction) :
    Op W Unit := do
  requireInstructionPrivilege instruction.opcode
  match instruction.opcode with
  | .NOP => do
      requireNoBinaryOperands instruction
      advanceBinaryPcUnlessHalted
  | .HALT => do
      requireNoBinaryOperands instruction
      modifyState fun state => { state with halted := true }
  | .MOV => do
      requireTwoBinaryOperands instruction
      requireBinaryRegisterDestination instruction.dst_type instruction.dst_payload
      let value ← readBinaryOperandValue m instruction.src_type instruction.src_payload
      writeBinaryRegisterDestination instruction.dst_type instruction.dst_payload value
      modifyFlags fun flags => flags.updateZeroAndSign value
      advanceBinaryPcUnlessHalted
  | .LOAD => do
      requireTwoBinaryOperands instruction
      requireBinaryRegisterDestination instruction.dst_type instruction.dst_payload
      let address ← readBinaryMemoryAddress instruction.src_type instruction.src_payload
      let value ← readDataMemory m address
      writeBinaryRegisterDestination instruction.dst_type instruction.dst_payload value
      modifyFlags fun flags => flags.updateZeroAndSign value
      advanceBinaryPcUnlessHalted
  | .STORE => do
      requireTwoBinaryOperands instruction
      let address ← readBinaryMemoryAddress instruction.dst_type instruction.dst_payload
      let value ← readBinaryOperandValue m instruction.src_type instruction.src_payload
      writeDataMemory m address value
      modifyFlags fun flags => flags.updateZeroAndSign value
      advanceBinaryPcUnlessHalted
  | .ADD => executeBinaryALU (fun lhs rhs => .ok (ALU.add lhs rhs)) m instruction
  | .SUB => executeBinaryALU (fun lhs rhs => .ok (ALU.sub lhs rhs)) m instruction
  | .MUL => executeBinaryALU (fun lhs rhs => .ok (ALU.mul lhs rhs)) m instruction
  | .DIV => executeBinaryALU ALU.div m instruction
  | .CMP => executeBinaryComparison ALU.compare m instruction
  | .TEST => executeBinaryComparison ALU.test m instruction
  | .JMP => do
      requireSingleBinaryOperand instruction
      let target ← Exec.lift
        (readBinaryCodeAddress m instruction.dst_type instruction.dst_payload)
      setPcForExecution m target
  | .JE => executeBinaryBranch (fun flags => flags.zero) m instruction
  | .JNE => executeBinaryBranch (fun flags => !flags.zero) m instruction
  | .JG => executeBinaryBranch signedGreaterThanFromFlags m instruction
  | .JL => executeBinaryBranch signedLessThanFromFlags m instruction
  | .PUSH => do
      requireSingleBinaryOperand instruction
      let value ← readBinaryOperandValue m instruction.dst_type instruction.dst_payload
      pushValue value
      advanceBinaryPcUnlessHalted
  | .POP => do
      requireSingleBinaryOperand instruction
      requireBinaryRegisterDestination instruction.dst_type instruction.dst_payload
      let value ← popValue
      writeBinaryRegisterDestination instruction.dst_type instruction.dst_payload value
      modifyFlags fun flags => flags.updateZeroAndSign value
      advanceBinaryPcUnlessHalted
  | .CALL => do
      requireSingleBinaryOperand instruction
      let target ← Exec.lift
        (readBinaryCodeAddress m instruction.dst_type instruction.dst_payload)
      let core ← Exec.get
      let returnAddress := core.state.pc + kInstructionSize
      Exec.lift (requireExecutionAddress m target core.state.privilegeLevel)
      Exec.lift (requireExecutionAddress m returnAddress core.state.privilegeLevel)
      pushValue (Word.ofSize returnAddress)
      setPc target
  | .RET => do
      requireNoBinaryOperands instruction
      let returnAddressValue ← peekValue
      let returnAddress ← Exec.lift
        (checkedReturnAddress returnAddressValue "Negative binary return address")
      let core ← Exec.get
      Exec.lift (requireExecutionAddress m returnAddress core.state.privilegeLevel)
      let _ ← popValue
      setPc returnAddress
  | .IRET => do
      requireNoBinaryOperands instruction
      restoreInterruptFrame m "Negative binary interrupt return address" false
  | .EI => do
      requireNoBinaryOperands instruction
      setInterruptsEnabled m true "EI requires interrupt controller"
      advanceBinaryPcUnlessHalted
  | .DI => do
      requireNoBinaryOperands instruction
      setInterruptsEnabled m false "DI requires interrupt controller"
      advanceBinaryPcUnlessHalted
  | .INT => do
      requireSingleBinaryOperand instruction
      match m.interruptController with
      | none => Exec.throw "INT requires interrupt controller"
      | some r => do
          let vectorValue ← readBinaryOperandValue m instruction.dst_type instruction.dst_payload
          let vector ← Exec.lift (interruptVector vectorValue)
          let core ← Exec.get
          let returnAddress := core.state.pc + kInstructionSize
          let serviced ← serviceHostSoftwareInterrupt m vector returnAddress
          if serviced then pure ()
          else
            enterVectorHandler r vector returnAddress
              (fun handler => !m.hasBinaryProgram || isBinaryPcInCode m handler)
              "INT handler is outside loaded binary code section"
  | .AND => executeBinaryALU (fun lhs rhs => .ok (ALU.bitAnd lhs rhs)) m instruction
  | .OR => executeBinaryALU (fun lhs rhs => .ok (ALU.bitOr lhs rhs)) m instruction
  | .XOR => executeBinaryALU (fun lhs rhs => .ok (ALU.bitXor lhs rhs)) m instruction
  | .NOT => do
      requireSingleBinaryOperand instruction
      requireBinaryRegisterDestination instruction.dst_type instruction.dst_payload
      let value ← readBinaryOperandValue m instruction.dst_type instruction.dst_payload
      let result := ALU.bitNot value
      writeBinaryRegisterDestination instruction.dst_type instruction.dst_payload result.value
      modifyFlags fun flags => applyALUResultToFlags flags result
      advanceBinaryPcUnlessHalted
  | .Invalid => Exec.throw "Invalid binary opcode"

/-! ## Fetch -/

/-- The encoded instruction at PC, decoded. -/
def fetchBinary (m : Setup W) : Op W DecodedInstruction := do
  let core ← Exec.get
  Exec.require (isBinaryPcInCode m core.state.pc) "Binary PC is outside loaded code section"
  let instructionBytes ← Exec.lift (core.state.memory.readBytes core.state.pc kInstructionSize)
  Exec.lift (InstructionDecoder.decodeInstruction instructionBytes)

/-- `CPU::traceOperandFromEncoded`. -/
def traceOperandFromEncoded (m : Setup W) (type : EncodedOperandType) (payload : Word) :
    Except Str Operand :=
  match type with
  | .None => .ok .none
  | .Register => do
      let reg ← decodeBinaryRegister payload
      pure (.register reg)
  | .Immediate => .ok (.immediate payload)
  | .MemoryAddress => do
      reject (payload.toInt < 0) "Negative binary memory address"
      pure (.memoryAddress payload)
  | .RegisterIndirectAddress => do
      let reg ← decodeBinaryRegister payload
      pure (.registerIndirectAddress reg)
  | .CodeAddress => do
      let offset ← checkedSize payload "Negative binary code address"
      pure (.immediate (Word.ofSize (m.binaryCodeBase + offset)))

/-- The instruction shown in the trace for a decoded one; a source without a destination is
dropped. -/
def traceInstruction (m : Setup W) (decoded : DecodedInstruction) : Except Str Instruction := do
  let dst ← traceOperandFromEncoded m decoded.dst_type decoded.dst_payload
  let src ← traceOperandFromEncoded m decoded.src_type decoded.src_payload
  if dst = .none then pure ⟨decoded.opcode, .none, .none⟩
  else if src = .none then pure ⟨decoded.opcode, dst, .none⟩
  else pure ⟨decoded.opcode, dst, src⟩

/-- `CPU::traceInstructionForCurrentBinaryPc`. -/
def traceInstructionForCurrentBinaryPc (m : Setup W) : Op W Instruction := do
  let decoded ← fetchBinary m
  Exec.lift (traceInstruction m decoded)

/-- `CPU::stepBinary`. -/
def stepBinary [LongDouble] (m : Setup W) : Op W Unit := do
  let instruction ← fetchBinary m
  executeBinaryInstruction m instruction

/-- The instruction at PC of a program of `Instruction`s. -/
def fetchProgram (m : Setup W) : Op W Instruction := do
  let core ← Exec.get
  match m.program[core.state.pc]? with
  | some instruction => pure instruction
  | none => Exec.throw "PC out of program range"

/-! ## Steps -/

/-- Devices tick after an instruction that left the CPU running. -/
def tickUnlessStopped (m : Setup W) : Op W Unit := do
  let core ← Exec.get
  if !core.state.halted && !core.state.hasError then tickClockedDevices m

end CPU

/-- `TraceEvent`: the states around a step, the instruction and the error it raised. The change
lists that the constructor derives from these are not modelled. -/
structure TraceEvent where
  before : CPUState
  instruction : Instruction
  after : CPUState
  errorMessage : Str

/-- `CPU`. -/
structure CPU (W : Type) where
  setup : Setup W
  core : Core W
  trace : List TraceEvent

namespace CPU

/-- `setRuntimeError` on a caught exception. -/
def setRuntimeError (message : Str) (core : Core W) : Core W :=
  core.updateState fun state => state.setError message

/-- End a step: a caught exception becomes the CPU's error, and the step is traced. -/
def finishStep (cpu : CPU W) (before : CPUState) (instruction : Instruction)
    (outcome : Except Str Unit × Core W) : CPU W :=
  match outcome with
  | (.ok (), core) =>
      { cpu with core := core, trace := cpu.trace ++ [⟨before, instruction, core.state, []⟩] }
  | (.error message, core) =>
      let core := setRuntimeError message core
      { cpu with
        core := core
        trace := cpu.trace ++ [⟨before, instruction, core.state, message⟩] }

/-- The instruction part of `CPU::step`, for either representation of the program. -/
def stepInstruction [LongDouble] (cpu : CPU W) (core : Core W) : CPU W :=
  let m := cpu.setup
  let fetch : Op W Instruction := do
    requireCurrentPcExecutable m
    if m.hasBinaryProgram then traceInstructionForCurrentBinaryPc m else fetchProgram m
  match fetch core with
  | (.error message, core') => cpu.finishStep core.state ⟨.Invalid, .none, .none⟩
      (.error message, core')
  | (.ok instruction, core') =>
      let body : Op W Unit := do
        if m.hasBinaryProgram then stepBinary m else execute m instruction
        tickUnlessStopped m
      cpu.finishStep core.state instruction (body core')

/-- `CPU::step`. -/
def step [LongDouble] (cpu : CPU W) : CPU W :=
  if cpu.core.state.halted ∨ cpu.core.state.hasError then cpu
  else
    let core := { cpu.core with softwareInterruptObservation := none }
    match servicePendingInterruptIfNeeded cpu.setup core with
    | (.ok true, core') =>
        cpu.finishStep core.state
          ⟨.INT, .immediate (core'.state.registers .R0), .none⟩ (.ok (), core')
    | (.error message, core') =>
        cpu.finishStep core.state ⟨.INT, .none, .none⟩ (.error message, core')
    | (.ok false, core') => cpu.stepInstruction core'

/-- `n` calls of `step`. -/
def steps [LongDouble] : ℕ → CPU W → CPU W
  | 0, cpu => cpu
  | n + 1, cpu => steps n cpu.step

/-! ## Loading -/

/-- A default-constructed CPU next to the world `world`. -/
def new (world : W) : CPU W where
  setup :=
    { program := [], labels := [], hasBinaryProgram := false
      binaryCodeBase := 0, binaryEntryPoint := 0, binaryCodeSize := 0
      hasUserCodeRange := false, userCodeBegin := 0, userCodeEndExclusive := 0
      mmioBus := none, interruptController := none, softwareInterruptHandler := none
      clockedDevices := [] }
  core :=
    { state := CPUState.initial
      kernelStackPointer := MemoryMap.kKernelStackBase
      usingKernelInterruptStack := false
      softwareInterruptObservation := none
      processExitRequest := none
      world := world }
  trace := []

/-- `CPU::loadProgram`. -/
def loadProgram (cpu : CPU W) (program : List Instruction) (labels : LabelTable) : CPU W where
  setup := { cpu.setup with
    program := program
    labels := labels
    hasBinaryProgram := false
    binaryCodeBase := 0
    binaryEntryPoint := 0
    binaryCodeSize := 0
    hasUserCodeRange := !program.isEmpty
    userCodeBegin := 0
    userCodeEndExclusive := program.length }
  core := { cpu.core with
    state := cpu.core.state.reset
    kernelStackPointer := MemoryMap.kKernelStackBase
    usingKernelInterruptStack := false
    processExitRequest := none }
  trace := []

/-- `CPU::loadBinaryProgram`: when the loader throws, the state, the program and the trace have
already been cleared. -/
def loadBinaryProgram (program : Binary.BinaryProgram) : Exec Str (CPU W) Unit := do
  Exec.modify fun cpu =>
    { setup := { cpu.setup with program := [], labels := [] }
      core := { cpu.core with state := cpu.core.state.reset }
      trace := [] }
  let cpu ← Exec.get
  let (image, memory) ← Exec.lift
    (Binary.BinaryLoader.loadIntoMemory program cpu.core.state.memory kDefaultBinaryCodeBase)
  Exec.modify fun cpu => { cpu with
    setup := { cpu.setup with
      hasBinaryProgram := true
      binaryCodeBase := image.code_base
      binaryEntryPoint := image.entry_point
      binaryCodeSize := image.code_size
      hasUserCodeRange := image.code_size != 0
      userCodeBegin := image.code_base
      userCodeEndExclusive := image.code_base + image.code_size }
    core := { cpu.core with
      state := { cpu.core.state with memory := memory, pc := image.entry_point }
      kernelStackPointer := MemoryMap.kKernelStackBase
      usingKernelInterruptStack := false
      processExitRequest := none } }

end CPU

end ZeroCpu
