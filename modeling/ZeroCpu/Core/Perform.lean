import ZeroCpu.Core.Execute

/-!
# The instruction set over abstract operands

`execute` and `executeBinaryInstruction` are two hand-written switches over the same opcodes. What
they do not share is how an operand is represented, how far PC moves and which messages they throw.
An `OperandView` is what an operand means (a destination register, an address, a value, a code
target) and an `Engine` is the rest of the difference. `perform` is the instruction set over these,
and both switches are instances of it, so a property of instructions is proved once.
-/

namespace ZeroCpu

open Library

variable {W : Type}

/-- What an operand stands for in each place an instruction may put it. -/
structure OperandView where
  /-- As a destination register. -/
  register : Except Str RegisterName
  /-- As a memory address. -/
  address : RegisterFile → Except Str ℕ
  /-- As a value: a word at hand, or the address of the word. -/
  source : RegisterFile → Except Str (Word ⊕ ℕ)
  /-- As a code address. -/
  target : Except Str ℕ

/-- An instruction with its operands' meanings and its three arity checks. -/
structure InstructionView where
  opcode : Opcode
  noOperand : Except Str Unit
  oneOperand : Except Str Unit
  twoOperands : Except Str Unit
  dst : OperandView
  src : OperandView

/-- What else differs between the two engines. -/
structure Engine where
  /-- The distance between two instructions. -/
  size : ℕ
  returnError : Str
  interruptReturnError : Str
  handlerOk : ℕ → Bool
  handlerError : Str
  invalidOpcode : Str

namespace CPU

/-! ## The instruction set -/

/-- Read the value of an operand. -/
def readSource (m : Setup W) (operand : OperandView) : Op W Word := do
  let core ← Exec.get
  let source ← Exec.lift (operand.source core.state.registers)
  match source with
  | .inl value => pure value
  | .inr address => readDataMemory m address

/-- The address of a memory operand. -/
def readAddress (operand : OperandView) : Op W ℕ := do
  let core ← Exec.get
  Exec.lift (operand.address core.state.registers)

/-- Fail unless the operand is a register. -/
def requireRegister (operand : OperandView) : Op W Unit := do
  let _ ← Exec.lift operand.register

/-- Assign to a destination register. -/
def writeRegister (operand : OperandView) (value : Word) : Op W Unit := do
  let reg ← Exec.lift operand.register
  setRegister reg value

/-- Go on to the next instruction. -/
def advanceUnlessHalted (size : ℕ) : Op W Unit := modifyState fun state =>
  if !state.halted then { state with pc := state.pc + size } else state

/-- Assign to a destination register, with the flags of the value, and go on. -/
def finishMove (e : Engine) (operand : OperandView) (value : Word) : Op W Unit := do
  writeRegister operand value
  modifyFlags fun flags => flags.updateZeroAndSign value
  advanceUnlessHalted e.size

/-- Assign an ALU result to a destination register, with its flags, and go on. -/
def finishALU (e : Engine) (operand : OperandView) (result : ALUResult) : Op W Unit := do
  writeRegister operand result.value
  modifyFlags fun flags => applyALUResultToFlags flags result
  advanceUnlessHalted e.size

/-- A two-operand instruction of the ALU. -/
def performALU (op : Word → Word → Except Str ALUResult) (e : Engine) (m : Setup W)
    (i : InstructionView) : Op W Unit := do
  Exec.lift i.twoOperands
  requireRegister i.dst
  let lhs ← readSource m i.dst
  let rhs ← readSource m i.src
  let result ← Exec.lift (op lhs rhs)
  finishALU e i.dst result

/-- A comparison, which sets the flags only. -/
def performComparison (op : Word → Word → ALUResult) (e : Engine) (m : Setup W)
    (i : InstructionView) : Op W Unit := do
  Exec.lift i.twoOperands
  let lhs ← readSource m i.dst
  let rhs ← readSource m i.src
  modifyFlags fun flags => applyALUResultToFlags flags (op lhs rhs)
  advanceUnlessHalted e.size

/-- A jump to the code address of an operand. -/
def performJump (m : Setup W) (operand : OperandView) : Op W Unit := do
  let target ← Exec.lift operand.target
  setPcForExecution m target

/-- A conditional jump. -/
def performBranch (taken : Flags → Bool) (e : Engine) (m : Setup W) (i : InstructionView) :
    Op W Unit := do
  Exec.lift i.oneOperand
  let core ← Exec.get
  if taken core.state.flags then performJump m i.dst else advanceUnlessHalted e.size

/-- `CALL`, which checks its target before it pushes. -/
def performCall (e : Engine) (m : Setup W) (i : InstructionView) : Op W Unit := do
  Exec.lift i.oneOperand
  let target ← Exec.lift i.dst.target
  let core ← Exec.get
  let returnAddress := core.state.pc + e.size
  Exec.lift (requireExecutionAddress m target core.state.privilegeLevel)
  Exec.lift (requireExecutionAddress m returnAddress core.state.privilegeLevel)
  pushValue (Word.ofSize returnAddress)
  setPc target

/-- `RET`, which checks the address on the stack before it pops. -/
def performRet (e : Engine) (m : Setup W) (i : InstructionView) : Op W Unit := do
  Exec.lift i.noOperand
  let returnAddressValue ← peekValue
  let returnAddress ← Exec.lift (checkedReturnAddress returnAddressValue e.returnError)
  let core ← Exec.get
  Exec.lift (requireExecutionAddress m returnAddress core.state.privilegeLevel)
  let _ ← popValue
  setPc returnAddress

/-- `INT`, which a host handler may serve before the vector table is asked. -/
def performInt (e : Engine) (m : Setup W) (i : InstructionView) : Op W Unit := do
  Exec.lift i.oneOperand
  match m.interruptController with
  | none => Exec.throw "INT requires interrupt controller"
  | some r => do
      let vectorValue ← readSource m i.dst
      let vector ← Exec.lift (interruptVector vectorValue)
      let core ← Exec.get
      let returnAddress := core.state.pc + e.size
      let serviced ← serviceHostSoftwareInterrupt m vector returnAddress
      if serviced then pure ()
      else enterVectorHandler r vector returnAddress e.handlerOk e.handlerError

/-- One instruction of the instruction set. -/
def perform [LongDouble] (e : Engine) (m : Setup W) (i : InstructionView) : Op W Unit := do
  requireInstructionPrivilege i.opcode
  match i.opcode with
  | .NOP => do
      Exec.lift i.noOperand
      advanceUnlessHalted e.size
  | .HALT => do
      Exec.lift i.noOperand
      modifyState fun state => { state with halted := true }
  | .MOV => do
      Exec.lift i.twoOperands
      requireRegister i.dst
      let value ← readSource m i.src
      finishMove e i.dst value
  | .LOAD => do
      Exec.lift i.twoOperands
      requireRegister i.dst
      let address ← readAddress i.src
      let value ← readDataMemory m address
      finishMove e i.dst value
  | .STORE => do
      Exec.lift i.twoOperands
      let address ← readAddress i.dst
      let value ← readSource m i.src
      writeDataMemory m address value
      modifyFlags fun flags => flags.updateZeroAndSign value
      advanceUnlessHalted e.size
  | .ADD => performALU (fun lhs rhs => .ok (ALU.add lhs rhs)) e m i
  | .SUB => performALU (fun lhs rhs => .ok (ALU.sub lhs rhs)) e m i
  | .MUL => performALU (fun lhs rhs => .ok (ALU.mul lhs rhs)) e m i
  | .DIV => performALU ALU.div e m i
  | .AND => performALU (fun lhs rhs => .ok (ALU.bitAnd lhs rhs)) e m i
  | .OR => performALU (fun lhs rhs => .ok (ALU.bitOr lhs rhs)) e m i
  | .XOR => performALU (fun lhs rhs => .ok (ALU.bitXor lhs rhs)) e m i
  | .NOT => do
      Exec.lift i.oneOperand
      requireRegister i.dst
      let value ← readSource m i.dst
      finishALU e i.dst (ALU.bitNot value)
  | .CMP => performComparison ALU.compare e m i
  | .TEST => performComparison ALU.test e m i
  | .JMP => do
      Exec.lift i.oneOperand
      performJump m i.dst
  | .JE => performBranch (fun flags => flags.zero) e m i
  | .JNE => performBranch (fun flags => !flags.zero) e m i
  | .JG => performBranch signedGreaterThanFromFlags e m i
  | .JL => performBranch signedLessThanFromFlags e m i
  | .PUSH => do
      Exec.lift i.oneOperand
      let value ← readSource m i.dst
      pushValue value
      advanceUnlessHalted e.size
  | .POP => do
      Exec.lift i.oneOperand
      requireRegister i.dst
      let value ← popValue
      finishMove e i.dst value
  | .CALL => performCall e m i
  | .RET => performRet e m i
  | .IRET => do
      Exec.lift i.noOperand
      restoreInterruptFrame m e.interruptReturnError false
  | .EI => do
      Exec.lift i.noOperand
      setInterruptsEnabled m true "EI requires interrupt controller"
      advanceUnlessHalted e.size
  | .DI => do
      Exec.lift i.noOperand
      setInterruptsEnabled m false "DI requires interrupt controller"
      advanceUnlessHalted e.size
  | .INT => performInt e m i
  | .Invalid => Exec.throw e.invalidOpcode

/-! ## The interpreted engine -/

/-- A Boolean check with its message. -/
def checked (b : Bool) (error : Str) : Except Str Unit := if b then .ok () else .error error

theorem lift_checked (b : Bool) (error : Str) :
    (Exec.lift (checked b error) : Op W Unit) = Exec.require b error := by
  cases b <;> rfl

end CPU

namespace Operand

/-- The address a memory operand of an `Instruction` denotes. -/
def address (operand : Operand) (registers : RegisterFile) : Except Str ℕ :=
  match operand with
  | .memoryAddress address => .ok address.toNat
  | .registerIndirectAddress reg =>
      CPU.checkedSize (registers reg) "Negative register-indirect memory address"
  | _ => .error "Operand must be memory address"

/-- What an operand of an `Instruction` means. -/
def view (m : Setup W) (operand : Operand) : OperandView where
  register := match operand with
    | .register reg => .ok reg
    | _ => .error "Destination must be register"
  address := operand.address
  source := fun registers => match operand with
    | .register reg => .ok (.inl (registers reg))
    | .immediate value => .ok (.inl value)
    | .memoryAddress _ | .registerIndirectAddress _ => (operand.address registers).map .inr
    | _ => .error "Operand cannot be read as a value"
  target := CPU.resolveLabelAddress m operand

end Operand

/-- What an `Instruction` means. -/
def Instruction.view (m : Setup W) (instruction : Instruction) : InstructionView where
  opcode := instruction.opcode
  noOperand := CPU.checked (instruction.dst == .none && instruction.src == .none)
    "Instruction requires no operand"
  oneOperand := CPU.checked (instruction.dst != .none && instruction.src == .none)
    "Instruction requires one operand"
  twoOperands := CPU.checked (instruction.dst != .none && instruction.src != .none)
    "Instruction requires two operands"
  dst := instruction.dst.view m
  src := instruction.src.view m

/-- The engine behind `execute`. -/
def Engine.interpreted (m : Setup W) : Engine where
  size := 1
  returnError := "Negative return address"
  interruptReturnError := "Negative interrupt return address"
  handlerOk := fun handler => decide (handler < m.program.length)
  handlerError := "INT handler is outside loaded program"
  invalidOpcode := "Invalid opcode"

namespace CPU

theorem requireNoOperand_eq (m : Setup W) (instruction : Instruction) :
    (requireNoOperand instruction : Op W Unit) = Exec.lift (instruction.view m).noOperand :=
  (lift_checked _ _).symm

theorem requireSingleOperand_eq (m : Setup W) (instruction : Instruction) :
    (requireSingleOperand instruction : Op W Unit) = Exec.lift (instruction.view m).oneOperand :=
  (lift_checked _ _).symm

theorem requireTwoOperands_eq (m : Setup W) (instruction : Instruction) :
    (requireTwoOperands instruction : Op W Unit) = Exec.lift (instruction.view m).twoOperands :=
  (lift_checked _ _).symm

theorem requireRegisterDestination_eq (m : Setup W) (operand : Operand) :
    (requireRegisterDestination operand : Op W Unit) = requireRegister (operand.view m) := by
  cases operand <;> rfl

/-- The interpreter writes a register. -/
theorem writeRegisterDestination_eq (m : Setup W) (operand : Operand) (value : Word) :
    (writeRegisterDestination operand value : Op W Unit)
      = writeRegister (operand.view m) value := by
  cases operand <;> rfl

theorem readMemoryAddress_eq (m : Setup W) (operand : Operand) :
    (readMemoryAddress operand : Op W ℕ) = readAddress (operand.view m) := by
  cases operand <;> rfl

/-- The interpreter reads an operand. -/
theorem readOperandValue_eq (m : Setup W) (operand : Operand) :
    readOperandValue m operand = readSource m (operand.view m) := by
  cases operand with
  | registerIndirectAddress reg =>
    funext core
    simp only [readOperandValue, readMemoryAddress_eq m, readAddress, readSource, Operand.view,
      Exec.bind_apply, Exec.get_apply, Exec.lift_apply]
    rcases Operand.address (.registerIndirectAddress reg) core.state.registers with e | address
    <;> rfl
  | _ => rfl

/-- `execute` is the instruction set over an `Instruction`'s operands. -/
theorem execute_eq_perform [LongDouble] (m : Setup W) (instruction : Instruction) :
    execute m instruction = perform (Engine.interpreted m) m (instruction.view m) := by
  have hadvance : (advancePcUnlessHalted : Op W Unit) = advanceUnlessHalted 1 := rfl
  obtain ⟨opcode, dst, src⟩ := instruction
  cases opcode <;>
    simp only [execute, perform, executeNop, executeHalt, executeMov, executeLoad, executeStore,
      executeAdd, executeSub, executeMul, executeDiv, executeAnd, executeOr, executeXor, executeNot,
      executeCmp, executeTest, executeJmp, executeJe, executeJne, executeJg, executeJl, executePush,
      executePop, executeCall, executeRet, executeIret, executeEi, executeDi, executeInt, executeALU,
      executeComparison, executeBranch, performALU, performComparison, performJump, performBranch,
      performCall, performRet, performInt, finishMove, finishALU, requireNoOperand_eq m,
      requireSingleOperand_eq m, requireTwoOperands_eq m, requireRegisterDestination_eq m,
      writeRegisterDestination_eq m, readMemoryAddress_eq m, readOperandValue_eq, hadvance] <;>
    rfl

end CPU

/-! ## The binary engine -/

/-- The address a memory operand of an encoded instruction denotes. -/
def binaryAddress (type : EncodedOperandType) (payload : Word) (registers : RegisterFile) :
    Except Str ℕ :=
  match type with
  | .MemoryAddress => CPU.checkedSize payload "Negative binary memory address"
  | .RegisterIndirectAddress => do
      let baseRegister ← CPU.decodeBinaryRegister payload
      CPU.checkedSize (registers baseRegister) "Negative binary register-indirect memory address"
  | _ => .error "Binary operand must be memory address"

/-- What an operand of an encoded instruction means. -/
def binaryView (m : Setup W) (type : EncodedOperandType) (payload : Word) : OperandView where
  register := CPU.binaryRegisterDestination type payload
  address := binaryAddress type payload
  source := fun registers => match type with
    | .Register => (CPU.decodeBinaryRegister payload).map fun reg => .inl (registers reg)
    | .Immediate => .ok (.inl payload)
    | .MemoryAddress | .RegisterIndirectAddress => (binaryAddress type payload registers).map .inr
    | _ => .error "Binary operand cannot be read as a value"
  target := CPU.readBinaryCodeAddress m type payload

/-- What an encoded instruction means. -/
def DecodedInstruction.view (m : Setup W) (instruction : DecodedInstruction) : InstructionView where
  opcode := instruction.opcode
  noOperand := CPU.checked (instruction.dst_type == .None && instruction.src_type == .None
    && instruction.dst_payload == 0 && instruction.src_payload == 0)
    "Binary instruction requires no operands"
  oneOperand := CPU.checked (instruction.dst_type != .None && instruction.src_type == .None
    && instruction.src_payload == 0)
    "Binary instruction requires one operand"
  twoOperands := CPU.checked (instruction.dst_type != .None && instruction.src_type != .None)
    "Binary instruction requires two operands"
  dst := binaryView m instruction.dst_type instruction.dst_payload
  src := binaryView m instruction.src_type instruction.src_payload

/-- The engine behind `executeBinaryInstruction`. -/
def Engine.binary (m : Setup W) : Engine where
  size := kInstructionSize
  returnError := "Negative binary return address"
  interruptReturnError := "Negative binary interrupt return address"
  handlerOk := fun handler => !m.hasBinaryProgram || CPU.isBinaryPcInCode m handler
  handlerError := "INT handler is outside loaded binary code section"
  invalidOpcode := "Invalid binary opcode"

namespace CPU

/-- The binary engine checks for no operand. -/
theorem requireNoBinaryOperands_eq (m : Setup W) (instruction : DecodedInstruction) :
    (requireNoBinaryOperands instruction : Op W Unit)
      = Exec.lift (instruction.view m).noOperand :=
  (lift_checked _ _).symm

/-- The binary engine checks for one operand. -/
theorem requireSingleBinaryOperand_eq (m : Setup W) (instruction : DecodedInstruction) :
    (requireSingleBinaryOperand instruction : Op W Unit)
      = Exec.lift (instruction.view m).oneOperand :=
  (lift_checked _ _).symm

/-- The binary engine checks for two operands. -/
theorem requireTwoBinaryOperands_eq (m : Setup W) (instruction : DecodedInstruction) :
    (requireTwoBinaryOperands instruction : Op W Unit)
      = Exec.lift (instruction.view m).twoOperands :=
  (lift_checked _ _).symm

/-- The binary engine takes an address. -/
theorem readBinaryMemoryAddress_eq (m : Setup W) (type : EncodedOperandType) (payload : Word) :
    (readBinaryMemoryAddress type payload : Op W ℕ)
      = readAddress (binaryView m type payload) := by
  cases type with
  | RegisterIndirectAddress =>
    funext core
    simp only [readBinaryMemoryAddress, readAddress, binaryView, binaryAddress, Exec.bind_apply,
      Exec.get_apply, Exec.lift_apply]
    rcases decodeBinaryRegister payload with e | reg <;> rfl
  | _ => rfl

/-- The binary engine reads an operand. -/
theorem readBinaryOperandValue_eq (m : Setup W) (type : EncodedOperandType) (payload : Word) :
    readBinaryOperandValue m type payload = readSource m (binaryView m type payload) := by
  funext core
  cases type with
  | Register =>
    simp only [readBinaryOperandValue, readSource, binaryView, Exec.bind_apply, Exec.get_apply,
      Exec.lift_apply, Exec.gets_apply]
    rcases decodeBinaryRegister payload with e | reg <;> rfl
  | MemoryAddress =>
    simp only [readBinaryOperandValue, readBinaryMemoryAddress_eq m, readAddress, readSource,
      binaryView, Exec.bind_apply, Exec.get_apply, Exec.lift_apply]
    rcases binaryAddress .MemoryAddress payload core.state.registers with e | address <;> rfl
  | RegisterIndirectAddress =>
    simp only [readBinaryOperandValue, readBinaryMemoryAddress_eq m, readAddress, readSource,
      binaryView, Exec.bind_apply, Exec.get_apply, Exec.lift_apply]
    rcases binaryAddress .RegisterIndirectAddress payload core.state.registers with e | address
    <;> rfl
  | _ => rfl

/-- `executeBinaryInstruction` is the instruction set over an encoded instruction's operands. -/
theorem executeBinaryInstruction_eq_perform [LongDouble] (m : Setup W)
    (instruction : DecodedInstruction) :
    executeBinaryInstruction m instruction
      = perform (Engine.binary m) m (instruction.view m) := by
  have hadvance : (advanceBinaryPcUnlessHalted : Op W Unit) = advanceUnlessHalted kInstructionSize :=
    rfl
  have hregister : ∀ (type : EncodedOperandType) (payload : Word),
      (requireBinaryRegisterDestination type payload : Op W Unit)
        = requireRegister (binaryView m type payload) := fun _ _ => rfl
  have hwrite : ∀ (type : EncodedOperandType) (payload value : Word),
      (writeBinaryRegisterDestination type payload value : Op W Unit)
        = writeRegister (binaryView m type payload) value := fun _ _ _ => rfl
  obtain ⟨opcode, dst_type, src_type, dst_payload, src_payload⟩ := instruction
  cases opcode <;>
    simp only [executeBinaryInstruction, perform, executeBinaryALU, executeBinaryComparison,
      executeBinaryBranch, performALU, performComparison, performJump, performBranch, performCall,
      performRet, performInt, finishMove, finishALU, requireNoBinaryOperands_eq m,
      requireSingleBinaryOperand_eq m, requireTwoBinaryOperands_eq m, readBinaryMemoryAddress_eq m,
      readBinaryOperandValue_eq, hadvance, hregister, hwrite] <;>
    rfl

end CPU

end ZeroCpu
