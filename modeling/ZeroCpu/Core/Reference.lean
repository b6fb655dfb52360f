import ZeroCpu.Core.Step

/-!
# The reference semantics

Reference: `docs/semantics.md`, sections 2 to 7.

The document describes each instruction by the after-state it prescribes. Here that description is a
function from a state to the prescribed after-state, undefined where the document speaks of a
runtime error. It is written from the document and in terms of integers, bytes and single flags: it
uses none of the CPU's methods. `next` is the fallthrough PC, the only place where the two program
representations differ once operands are resolved.
-/

namespace ZeroCpu.Reference

open Library

variable {W : Type}

/-! ## FLAGS and the ALU (2.4, 5.2 to 5.4) -/

/-- A word with a single bit, set when `value` holds. -/
def bit (position : ℕ) (value : Bool) : BitVec 32 :=
  if value then BitVec.twoPow 32 position else 0

/-- The FLAGS with C, Z, S and O (bits 0, 6, 7 and 11) as given and every other bit as before. -/
def withFlags (before : Flags) (z s c o : Bool) : Flags where
  bits := (before.bits &&& ~~~0x8C1#32) ||| bit 0 c ||| bit 6 z ||| bit 7 s ||| bit 11 o

/-- Z and S of a value; C and O are unchanged. -/
def withZS (before : Flags) (value : Word) : Flags :=
  withFlags before (value == 0) (decide (value.toInt < 0)) before.carry before.overflow

/-- FLAGS in one word of an interrupt frame: Z, S, C and O in bits 0 to 3. -/
def packed (flags : Flags) : Word :=
  BitVec.ofNat 64 (flags.zero.toNat + 2 * flags.sign.toNat + 4 * flags.carry.toNat
    + 8 * flags.overflow.toNat)

/-- The flags that a frame's word stands for. -/
def unpacked (before : Flags) (value : Word) : Flags :=
  withFlags before (value.getLsbD 0) (value.getLsbD 1) (value.getLsbD 2) (value.getLsbD 3)

/-- The result of an ALU instruction with its carry and overflow. -/
structure Result where
  value : Word
  carry : Bool
  overflow : Bool

/-- All four flags of a result. -/
def withResult (before : Flags) (r : Result) : Flags :=
  withFlags before (r.value == 0) (decide (r.value.toInt < 0)) r.carry r.overflow

/-- An integer outside the signed 64-bit range. -/
def overflows (x : ℤ) : Bool := !decide (-2 ^ 63 ≤ x ∧ x < 2 ^ 63)

/-- Addition: carry and overflow are those of the exact sum. -/
def add (lhs rhs : Word) : Result where
  value := BitVec.ofInt 64 (lhs.toInt + rhs.toInt)
  carry := decide (2 ^ 64 ≤ lhs.toNat + rhs.toNat)
  overflow := overflows (lhs.toInt + rhs.toInt)

/-- Subtraction: carry is the borrow, overflow that of the exact difference. -/
def sub (lhs rhs : Word) : Result where
  value := BitVec.ofInt 64 (lhs.toInt - rhs.toInt)
  carry := decide (lhs.toNat < rhs.toNat)
  overflow := overflows (lhs.toInt - rhs.toInt)

/-- `detected` says when a signed multiplication overflow is detected. -/
def mul (detected : Word → Word → Bool) (lhs rhs : Word) : Result where
  value := BitVec.ofInt 64 (lhs.toInt * rhs.toInt)
  carry := detected lhs rhs
  overflow := detected lhs rhs

/-- Signed division truncates; zero divisors and `INT64_MIN / -1` are runtime errors. -/
def div (lhs rhs : Word) : Option Result :=
  if rhs.toInt = 0 ∨ overflows (lhs.toInt.tdiv rhs.toInt) = true then none
  else some ⟨BitVec.ofInt 64 (lhs.toInt.tdiv rhs.toInt), false, false⟩

/-- The result of a bitwise operation. -/
def logical (value : Word) : Result := ⟨value, false, false⟩

/-! ## Operands (4) -/

/-- An operand with labels and encoded code addresses resolved. -/
inductive Operand where
  | none
  | register (reg : RegisterName)
  | immediate (value : Word)
  | memory (address : ℕ)
  | indirect (reg : RegisterName)
  | code (address : ℕ)
  | malformed
deriving DecidableEq

/-- An instruction with its operands decoded. -/
structure Instruction where
  opcode : Opcode
  dst : Operand
  src : Operand

namespace Operand

/-- The register of a register operand. -/
def asRegister : Operand → Option RegisterName
  | .register reg => some reg
  | _ => Option.none

/-- The address of a code operand. -/
def asCode : Operand → Option ℕ
  | .code address => some address
  | _ => Option.none

/-- The address of a memory operand; a negative indirect address is a runtime error. -/
def asAddress (registers : RegisterFile) : Operand → Option ℕ
  | .memory address => some address
  | .indirect reg => if (registers reg).toInt < 0 then Option.none else some (registers reg).toNat
  | _ => Option.none

end Operand

/-! ## Data accesses (3) -/

/-- A User access stays inside the low data window. -/
def mayAccess (s : Core W) (address : ℕ) : Prop :=
  s.state.privilegeLevel = .user → address + 8 ≤ 0x200

instance (s : Core W) (address : ℕ) : Decidable (mayAccess s address) :=
  inferInstanceAs (Decidable (_ → _))

/-- The device a data access is routed to, if there is one at the address. -/
def deviceAt (m : Setup W) (address : ℕ) : Option (MMIOMapping W) :=
  m.mmioBus.bind fun bus => bus.mappings.find? fun mapping =>
    decide (mapping.base ≤ address ∧ address < mapping.base + mapping.size)

/-- The value read at an address and the devices after the access. -/
def dataRead (m : Setup W) (s : Core W) (world : W) (address : ℕ) : Option (Word × W) :=
  if ¬ mayAccess s address then none
  else match deviceAt m address with
    | some mapping =>
        match mapping.device.read (address - mapping.base) world with
        | (.ok value, world') => some (value, world')
        | (.error _, _) => none
    | none =>
        if address + 8 ≤ s.state.memory.size then
          some (leWord 64 (s.state.memory.slice address 8), world)
        else none

/-- The memory and the devices after writing a value at an address. -/
def dataWrite (m : Setup W) (s : Core W) (world : W) (address : ℕ) (value : Word) :
    Option (Memory × W) :=
  if ¬ mayAccess s address then none
  else match deviceAt m address with
    | some mapping =>
        match mapping.device.write (address - mapping.base) value world with
        | (.ok _, world') => some (s.state.memory, world')
        | (.error _, _) => none
    | none =>
        if address + 8 ≤ s.state.memory.size then
          some (s.state.memory.splice address (leBytes 8 value), world)
        else none

/-- The value of a readable operand and the devices after reading it. -/
def value (m : Setup W) (s : Core W) (world : W) (operand : Operand) : Option (Word × W) :=
  match operand with
  | .register reg => some (s.state.registers reg, world)
  | .immediate value => some (value, world)
  | .memory _ | .indirect _ => do
      let address ← operand.asAddress s.state.registers
      dataRead m s world address
  | _ => none

/-! ## Code addresses (2.2, 4) -/

/-- In User mode PC only takes values inside the User code range. -/
def mayExecute (m : Setup W) (privilege : PrivilegeLevel) (address : ℕ) : Prop :=
  privilege = .user → m.hasUserCodeRange = true ∧ m.userCodeBegin ≤ address
    ∧ address < m.userCodeEndExclusive

instance (m : Setup W) (privilege : PrivilegeLevel) (address : ℕ) :
    Decidable (mayExecute m privilege address) := inferInstanceAs (Decidable (_ → _))

/-! ## Stacks (2.3) -/

/-- The bounds of the stack in use. -/
def stackRange (s : Core W) : ℕ × ℕ :=
  if s.state.privilegeLevel = .user then (0x800, 0xFA0)
  else if s.usingKernelInterruptStack then (0xFA0, 0x1000)
  else (0x800, s.state.memory.size)

/-- `count` slots from `sp` on are inside a stack. -/
def slotsInside (range : ℕ × ℕ) (sp count : ℕ) : Prop :=
  range.1 ≤ sp ∧ (sp - range.1) % 8 = 0 ∧ sp + 8 * count ≤ range.2

instance (range : ℕ × ℕ) (sp count : ℕ) : Decidable (slotsInside range sp count) :=
  inferInstanceAs (Decidable (_ ∧ _))

/-- The core with its stack pointer moved; on the Kernel interrupt stack the Kernel stack pointer
is the same register. -/
def withSp (s : Core W) (sp : ℕ) : Core W :=
  { s with
    state := { s.state with sp := sp }
    kernelStackPointer := if s.usingKernelInterruptStack then sp else s.kernelStackPointer }

/-- A word onto the stack in use. -/
def push (s : Core W) (value : Word) : Option (Core W) :=
  if slotsInside (stackRange s) s.state.sp 1 then
    some (withSp { s with state := { s.state with
      memory := s.state.memory.splice s.state.sp (leBytes 8 value) } } (s.state.sp + 8))
  else none

/-- The top word off the stack in use. -/
def pop (s : Core W) : Option (Word × Core W) :=
  if s.state.sp ≥ 8 ∧ slotsInside (stackRange s) (s.state.sp - 8) 1 then
    some (leWord 64 (s.state.memory.slice (s.state.sp - 8) 8), withSp s (s.state.sp - 8))
  else none

/-! ## Interrupt frames (5.7) -/

/-- The four slots of an interrupt frame. -/
structure Frame where
  returnAddress : Word
  flags : Word
  privilege : Word
  sp : Word

/-- The memory with a frame written from `base` on. -/
def Frame.write (frame : Frame) (memory : Memory) (base : ℕ) : Memory :=
  (((memory.splice base (leBytes 8 frame.returnAddress)).splice (base + 8)
    (leBytes 8 frame.flags)).splice (base + 16) (leBytes 8 frame.privilege)).splice (base + 24)
    (leBytes 8 frame.sp)

/-- The frame that starts at `base`. -/
def Frame.read (memory : Memory) (base : ℕ) : Frame where
  returnAddress := leWord 64 (memory.slice base 8)
  flags := leWord 64 (memory.slice (base + 8) 8)
  privilege := leWord 64 (memory.slice (base + 16) 8)
  sp := leWord 64 (memory.slice (base + 24) 8)

/-- Interrupt entry: the frame goes to the Kernel stack for an interrupted User and to the stack in
use otherwise, and the CPU enters Kernel mode. -/
def enter (s : Core W) (returnAddress : ℕ) : Option (Core W) :=
  let user := s.state.privilegeLevel = .user
  let range := if user then (0xFA0, 0x1000) else stackRange s
  let base := if user then s.kernelStackPointer else s.state.sp
  let frame : Frame :=
    { returnAddress := BitVec.ofNat 64 returnAddress
      flags := packed s.state.flags
      privilege := if user then 1 else 0
      sp := BitVec.ofNat 64 s.state.sp }
  if slotsInside range base 4 then
    let onKernelStack := decide user || s.usingKernelInterruptStack
    some { s with
      state := { s.state with
        memory := frame.write s.state.memory base
        privilegeLevel := .kernel
        sp := base + 32 }
      usingKernelInterruptStack := onKernelStack
      kernelStackPointer := if onKernelStack then base + 32 else s.kernelStackPointer }
  else none

/-- The privilege a frame slot stands for. -/
def savedPrivilege (slot : Word) : Option PrivilegeLevel :=
  if slot = 0 then some .kernel else if slot = 1 then some .user else none

/-- Interrupt return: FLAGS, privilege, PC and SP of the frame on top of the stack. Returning to
User mode leaves the Kernel interrupt stack. -/
def leave (m : Setup W) (s : Core W) : Option (Core W) := do
  let base := s.state.sp - 32
  let frame := Frame.read s.state.memory base
  let privilege ← savedPrivilege frame.privilege
  if s.state.sp ≥ 32 ∧ slotsInside (stackRange s) base 4 ∧ 0 ≤ frame.returnAddress.toInt
      ∧ 0 ≤ frame.sp.toInt ∧ mayExecute m privilege frame.returnAddress.toNat then
    some { s with
      state := { s.state with
        flags := unpacked s.state.flags frame.flags
        privilegeLevel := privilege
        pc := frame.returnAddress.toNat
        sp := frame.sp.toNat }
      usingKernelInterruptStack := s.usingKernelInterruptStack && privilege == .kernel
      kernelStackPointer :=
        if !s.usingKernelInterruptStack then s.kernelStackPointer
        else if privilege = .user then base else frame.sp.toNat }
  else none

/-! ## Instructions (5) -/

/-- How many operands an instruction has; a source needs a destination. -/
def Instruction.operandCount (i : Instruction) : Option ℕ :=
  if i.dst = .none then if i.src = .none then some 0 else none
  else if i.src = .none then some 1 else some 2

/-- How many operands an instruction is written with. -/
def arity : Opcode → ℕ
  | .NOP | .HALT | .RET | .IRET | .EI | .DI | .Invalid => 0
  | .NOT | .JMP | .JE | .JNE | .JG | .JL | .PUSH | .POP | .CALL | .INT => 1
  | .MOV | .LOAD | .STORE | .ADD | .SUB | .MUL | .DIV | .AND | .OR | .XOR | .CMP | .TEST => 2

/-- The privileged instructions. -/
def kernelOnly : Opcode → Bool
  | .HALT | .IRET | .EI | .DI => true
  | _ => false

/-- `PC <- address`. -/
def goTo (s : Core W) (address : ℕ) : Core W := { s with state := { s.state with pc := address } }

/-- `dst <- value`, Z and S from the value, `PC <- next`. -/
def move (s : Core W) (reg : RegisterName) (value : Word) (next : ℕ) : Core W :=
  { s with state := { s.state with
    registers := s.state.registers.set reg value
    flags := withZS s.state.flags value
    pc := next } }

/-- `dst <- result`, all four flags from the result, `PC <- next`. -/
def assign (s : Core W) (reg : RegisterName) (r : Result) (next : ℕ) : Core W :=
  { s with state := { s.state with
    registers := s.state.registers.set reg r.value
    flags := withResult s.state.flags r
    pc := next } }

/-- `dst <- dst op src`. -/
def arithmetic (op : Word → Word → Option Result) (m : Setup W) (next : ℕ) (i : Instruction)
    (s : Core W) : Option (Core W) := do
  let reg ← i.dst.asRegister
  let (rhs, world) ← value m s s.world i.src
  let r ← op (s.state.registers reg) rhs
  some (assign { s with world := world } reg r next)

/-- The flags of `dst op src`, nothing else. -/
def comparison (op : Word → Word → Result) (m : Setup W) (next : ℕ) (i : Instruction)
    (s : Core W) : Option (Core W) := do
  let (lhs, world) ← value m s s.world i.dst
  let (rhs, world) ← value m s world i.src
  some { s with
    world := world
    state := { s.state with flags := withResult s.state.flags (op lhs rhs), pc := next } }

/-- `PC <- operand`, where the privilege level may execute it. -/
def jump (m : Setup W) (operand : Operand) (s : Core W) : Option (Core W) := do
  let target ← operand.asCode
  if mayExecute m s.state.privilegeLevel target then some (goTo s target) else none

/-- A jump if taken, else the next instruction. -/
def branch (taken : Bool) (m : Setup W) (next : ℕ) (i : Instruction) (s : Core W) :
    Option (Core W) :=
  if taken then jump m i.dst s else some (goTo s next)

/-- `EI` and `DI`. -/
def setEnabled (enabled : Bool) (m : Setup W) (next : ℕ) (s : Core W) : Option (Core W) := do
  let r ← m.interruptController
  some (goTo { s with
    world := r.set { r.get s.world with globalEnabled := enabled } s.world } next)

/-- `INT`: the handler of the vector is entered with the fallthrough PC as return address. -/
def interrupt (m : Setup W) (next : ℕ) (i : Instruction) (s : Core W) : Option (Core W) := do
  let r ← m.interruptController
  let (vector, world) ← value m s s.world i.dst
  if 0 ≤ vector.toInt ∧ vector.toInt ≤ 255 then do
    let handler ← (r.get world).vectorTable (UInt8.ofNat vector.toNat)
    let entered ← enter { s with world := world } next
    some (goTo { entered with state := { entered.state with
      registers := entered.state.registers.set .R0 vector } } handler)
  else none

/-- The after-state of an instruction with the right number of operands and the privilege for it. -/
def effect (detected : Word → Word → Bool) (m : Setup W) (next : ℕ) (i : Instruction)
    (s : Core W) : Option (Core W) :=
  match i.opcode with
  | .MOV => do
      let reg ← i.dst.asRegister
      let (value, world) ← value m s s.world i.src
      some (move { s with world := world } reg value next)
  | .LOAD => do
      let reg ← i.dst.asRegister
      let address ← i.src.asAddress s.state.registers
      let (value, world) ← dataRead m s s.world address
      some (move { s with world := world } reg value next)
  | .STORE => do
      let address ← i.dst.asAddress s.state.registers
      let (value, world) ← value m s s.world i.src
      let (memory, world) ← dataWrite m s world address value
      some { s with
        world := world
        state := { s.state with
          memory := memory
          flags := withZS s.state.flags value
          pc := next } }
  | .ADD => arithmetic (fun lhs rhs => some (add lhs rhs)) m next i s
  | .SUB => arithmetic (fun lhs rhs => some (sub lhs rhs)) m next i s
  | .MUL => arithmetic (fun lhs rhs => some (mul detected lhs rhs)) m next i s
  | .DIV => arithmetic div m next i s
  | .AND => arithmetic (fun lhs rhs => some (logical (lhs &&& rhs))) m next i s
  | .OR => arithmetic (fun lhs rhs => some (logical (lhs ||| rhs))) m next i s
  | .XOR => arithmetic (fun lhs rhs => some (logical (lhs ^^^ rhs))) m next i s
  | .NOT => do
      let reg ← i.dst.asRegister
      some (assign s reg (logical (~~~(s.state.registers reg))) next)
  | .CMP => comparison sub m next i s
  | .TEST => comparison (fun lhs rhs => logical (lhs &&& rhs)) m next i s
  | .JMP => jump m i.dst s
  | .JE => branch s.state.flags.zero m next i s
  | .JNE => branch (!s.state.flags.zero) m next i s
  | .JG => branch (!s.state.flags.zero && s.state.flags.sign == s.state.flags.overflow) m next i s
  | .JL => branch (s.state.flags.sign != s.state.flags.overflow) m next i s
  | .PUSH => do
      let (value, world) ← value m s s.world i.dst
      let pushed ← push { s with world := world } value
      some (goTo pushed next)
  | .POP => do
      let reg ← i.dst.asRegister
      let (value, popped) ← pop s
      some (move popped reg value next)
  | .CALL => do
      let target ← i.dst.asCode
      let pushed ← push s (BitVec.ofNat 64 next)
      if mayExecute m s.state.privilegeLevel target then some (goTo pushed target) else none
  | .RET => do
      let (address, popped) ← pop s
      if 0 ≤ address.toInt ∧ mayExecute m s.state.privilegeLevel address.toNat then
        some (goTo popped address.toNat)
      else none
  | .IRET => leave m s
  | .EI => setEnabled true m next s
  | .DI => setEnabled false m next s
  | .INT => interrupt m next i s
  | .NOP => some (goTo s next)
  | .HALT => some { s with state := { s.state with halted := true } }
  | .Invalid => none

/-- The after-state of an instruction. -/
def exec (detected : Word → Word → Bool) (m : Setup W) (next : ℕ) (i : Instruction) (s : Core W) :
    Option (Core W) :=
  if i.operandCount ≠ some (arity i.opcode) then none
  else if s.state.privilegeLevel = .user ∧ kernelOnly i.opcode = true then none
  else effect detected m next i s

/-! ## Clocked devices (6) -/

/-- Every device ticks once, in the order of registration. -/
def tickAll : List (ClockedDevice W) → W → Option W
  | [], world => some world
  | device :: rest, world =>
      match device.tick world with
      | (.ok _, world') => tickAll rest world'
      | (.error _, _) => none

/-- The after-state of a step: the instruction, then the devices unless it halted the CPU. -/
def step (detected : Word → Word → Bool) (m : Setup W) (next : ℕ) (i : Instruction) (s : Core W) :
    Option (Core W) := do
  let after ← exec detected m next i s
  if after.state.halted then some after
  else do
    let world ← tickAll m.clockedDevices after.world
    some { after with world := world }

/-! ## The instruction at PC (1, 2.2, 4) -/

/-- An operand of a program of `Instruction`s: branch targets are labels. -/
def Operand.ofOperand (m : Setup W) : ZeroCpu.Operand → Operand
  | .none => .none
  | .register reg => .register reg
  | .immediate value => .immediate value
  | .memoryAddress address => .memory address.toNat
  | .registerIndirectAddress reg => .indirect reg
  | .label name =>
      match m.labels.lookup name with
      | some index => .code index
      | Option.none => .malformed

/-- An instruction boundary of the loaded code section. -/
def isBoundary (m : Setup W) (address : ℕ) : Prop :=
  m.binaryCodeBase ≤ address ∧ address + 24 ≤ m.binaryCodeBase + m.binaryCodeSize
    ∧ (address - m.binaryCodeBase) % 24 = 0

instance (m : Setup W) (address : ℕ) : Decidable (isBoundary m address) :=
  inferInstanceAs (Decidable (_ ∧ _))

/-- An operand of an encoded instruction: code addresses are relocated by the code base. -/
def Operand.ofEncoded (m : Setup W) (type : EncodedOperandType) (payload : Word) : Operand :=
  match type with
  | .None => if payload = 0 then .none else .malformed
  | .Register =>
      match RegisterName.all[payload.toNat]? with
      | some reg => .register reg
      | Option.none => .malformed
  | .Immediate => .immediate payload
  | .MemoryAddress => if payload.toInt < 0 then .malformed else .memory payload.toNat
  | .RegisterIndirectAddress =>
      match RegisterName.all[payload.toNat]? with
      | some reg => .indirect reg
      | Option.none => .malformed
  | .CodeAddress =>
      if payload.toInt < 0 ∨ ¬ isBoundary m (m.binaryCodeBase + payload.toNat) then .malformed
      else .code (m.binaryCodeBase + payload.toNat)

/-- An interpreted instruction. -/
def Instruction.ofInstruction (m : Setup W) (i : ZeroCpu.Instruction) : Instruction :=
  ⟨i.opcode, Operand.ofOperand m i.dst, Operand.ofOperand m i.src⟩

/-- A decoded binary instruction. -/
def Instruction.ofDecoded (m : Setup W) (d : DecodedInstruction) : Instruction :=
  ⟨d.opcode, Operand.ofEncoded m d.dst_type d.dst_payload,
    Operand.ofEncoded m d.src_type d.src_payload⟩

/-- The distance from an instruction to the next. -/
def instructionSize (m : Setup W) : ℕ := if m.hasBinaryProgram then 24 else 1

/-- The instruction at PC, in either representation. -/
def instructionAt (m : Setup W) (state : CPUState) : Option Instruction :=
  if m.hasBinaryProgram then
    if isBoundary m state.pc then
      (InstructionDecoder.decodeInstruction (state.memory.slice state.pc 24)).toOption.map
        (Instruction.ofDecoded m)
    else none
  else m.program[state.pc]?.map (Instruction.ofInstruction m)

end ZeroCpu.Reference
