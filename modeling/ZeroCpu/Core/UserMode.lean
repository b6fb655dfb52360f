import ZeroCpu.Core.Stack
import ZeroCpu.Core.Step

/-!
# User-mode execution

What one encoded instruction can do to a CPU in User mode. `UserContext` is the invariant: User
privilege, the User stack, a PC on an instruction boundary of the loaded code, the Kernel stack at
rest, a set of memory bytes that keep their values, and a property of the world that the devices
reachable from User code keep. Every opcode but `INT` keeps it on return and on a throw, whatever is
connected to the CPU; `INT` depends on what is connected and is treated after the others.
-/

namespace ZeroCpu

open Library MemoryMap

variable {W : Type}

/-- A binary of `len` code bytes loaded at the default base, all of it open to User mode. -/
structure UserSetup (m : Setup W) (len : ℕ) : Prop where
  binary : m.hasBinaryProgram = true
  base : m.binaryCodeBase = 512
  size : m.binaryCodeSize = len
  has_range : m.hasUserCodeRange = true
  range_begin : m.userCodeBegin = 512
  range_end : m.userCodeEndExclusive = 512 + len
  aligned : len % 24 = 0
  le : len ≤ 1536

/-- An instruction boundary of the code section. -/
def IsCodeAddress (len pc : ℕ) : Prop := 512 ≤ pc ∧ pc + 24 ≤ 512 + len ∧ pc % 24 = 512 % 24

namespace CPU

/-- PC is in the code section exactly at an address of the code. -/
theorem isBinaryPcInCode_iff {m : Setup W} {len : ℕ} (hm : UserSetup m len) (pc : ℕ) :
    isBinaryPcInCode m pc = true ↔ IsCodeAddress len pc := by
  simp only [isBinaryPcInCode, hm.base, hm.size, kInstructionSize, IsCodeAddress]
  split_ifs <;> simp <;> omega

/-- User mode executes the addresses of its code only. -/
theorem requireExecutionAddress_user {m : Setup W} {len : ℕ} (hm : UserSetup m len) (pc : ℕ)
    {u : Unit} : requireExecutionAddress m pc .user = .ok u ↔ IsCodeAddress len pc := by
  have hpc : isLoadedCodeAddress m pc = true ↔ IsCodeAddress len pc := by
    rw [isLoadedCodeAddress, if_pos hm.binary]
    exact isBinaryPcInCode_iff hm pc
  unfold requireExecutionAddress
  rw [if_neg (by simp), hm.has_range, hm.range_begin, hm.range_end]
  by_cases h : IsCodeAddress len pc
  · have hlt : pc < 512 + len := by
      have := h.2.1
      omega
    rw [if_pos ⟨rfl, h.1, hlt, hpc.mpr h⟩]
    simp [h]
  · rw [if_neg fun hc => h (hpc.mp hc.2.2.2)]
    simp [h]

end CPU

/-- What User-mode execution must leave alone: the length of the code section, the memory bytes
that keep their values, and a property of the world. -/
structure Confinement (W : Type) where
  len : ℕ
  frozen : ℕ → Prop
  memory : Memory
  worldOk : W → Prop

/-- The confinement suits a CPU: the frozen bytes are outside the User data window and the User
stack, the devices in the data window and the clocked devices keep the property of the world, and
that property leaves no vector handler to deliver an interrupt to. -/
structure Confinement.Fits (k : Confinement W) (m : Setup W) : Prop extends UserSetup m k.len where
  frozen_outside : ∀ i, k.frozen i → 512 ≤ i ∧ (i < 2048 ∨ 4000 ≤ i)
  bus_read : ∀ bus, m.mmioBus = some bus → ∀ address, bus.hasDeviceAt address = true →
    address + 8 ≤ 512 → Exec.Keeps k.worldOk (bus.read address)
  bus_write : ∀ bus, m.mmioBus = some bus → ∀ address value, bus.hasDeviceAt address = true →
    address + 8 ≤ 512 → Exec.Keeps k.worldOk (bus.write address value)
  tick : ∀ device ∈ m.clockedDevices, Exec.Keeps k.worldOk device.tick
  no_vector : ∀ r, m.interruptController = some r → ∀ world, k.worldOk world →
    ∀ vector, (r.get world).vectorTable vector = none

/-- The invariant of User-mode execution. -/
structure UserContext (k : Confinement W) (core : Core W) : Prop where
  privilege : core.state.privilegeLevel = .user
  memory_size : core.state.memory.size = 4096
  memory : ∀ i, k.frozen i → core.state.memory.byteAt i = k.memory.byteAt i
  kernel_stack_idle : core.usingKernelInterruptStack = false
  kernel_sp : core.kernelStackPointer = 4000
  sp_ge : 2048 ≤ core.state.sp
  sp_le : core.state.sp ≤ 4000
  sp_aligned : core.state.sp % 8 = 0
  pc_ge : 512 ≤ core.state.pc
  pc_le : core.state.pc ≤ 512 + k.len
  pc_aligned : core.state.pc % 24 = 512 % 24
  world : k.worldOk core.world

/-- The invariant of a CPU that can step. -/
structure UserRunning (k : Confinement W) (core : Core W) : Prop extends UserContext k core where
  not_halted : core.state.halted = false
  no_error : core.state.hasError = false

/-- The invariant while an instruction of the code section executes. -/
structure UserExec (k : Confinement W) (core : Core W) : Prop extends UserRunning k core where
  pc_in_code : core.state.pc + 24 ≤ 512 + k.len

namespace CPU

open Exec

variable {m : Setup W} {k : Confinement W}

/-! ## Memory and stack -/

theorem keeps_setRegister (reg : RegisterName) (value : Word) :
    Keeps (UserExec k) (setRegister reg value) :=
  Keeps.modify fun _ h => { h with }

theorem keeps_modifyFlags (f : Flags → Flags) : Keeps (UserExec k) (modifyFlags f) :=
  Keeps.modify fun _ h => { h with }

/-- A word stored outside the frozen bytes is invisible to the invariant. -/
theorem userExec_store {core : Core W} (h : UserExec k core) {address : ℕ} (value : Word)
    (hle : address + 8 ≤ core.state.memory.size)
    (hout : ∀ i, k.frozen i → i < address ∨ address + 8 ≤ i) :
    UserExec k (core.store address value) := by
  have hlen : address + (leBytes 8 value).length ≤ core.state.memory.size := by
    rw [length_leBytes]
    exact hle
  refine { h with memory_size := ?_, memory := ?_ }
  · exact (Memory.size_splice hlen).trans h.memory_size
  · intro i hi
    refine (Memory.byteAt_splice_of_notMem hlen ?_).trans (h.memory i hi)
    rw [length_leBytes]
    exact hout i hi

/-- SP may move anywhere on the User stack. -/
theorem userExec_moveSp {core : Core W} (h : UserExec k core) {sp : ℕ} (hge : 2048 ≤ sp)
    (hle : sp ≤ 4000) (hal : sp % 8 = 0) : UserExec k (core.moveSp sp) := by
  refine { h with kernel_sp := ?_, sp_ge := hge, sp_le := hle, sp_aligned := hal }
  show (if core.usingKernelInterruptStack then sp else core.kernelStackPointer) = 4000
  rw [h.kernel_stack_idle]
  exact h.kernel_sp

/-- In User mode a data access is inside the User data window. -/
theorem requireDataMemoryAccess_triple (address : ℕ) (operation : Str) :
    Triple (UserExec k) (requireDataMemoryAccess address operation)
      (fun _ core => UserExec k core ∧ address + 8 ≤ 512) (fun _ => UserExec k) := by
  intro core h
  have hu : core.state.isUserMode = true := by simp [CPUState.isUserMode, h.privilege]
  simp only [requireDataMemoryAccess, bind_apply, get_apply, require_apply, hu, Bool.not_true,
    Bool.false_or]
  by_cases hr : isUserDataRange address 8 = true
  · rw [if_pos hr]
    exact ⟨h, (isUserDataRange_iff address 8).mp hr⟩
  · rw [if_neg hr]
    exact h

/-- A device access in the data window keeps the invariant. -/
theorem keeps_zoom_world {α : Type} {x : Exec Str W α} (hx : Keeps k.worldOk x) :
    Keeps (UserExec k) (Exec.zoom Core.worldRef x) := by
  intro core h
  exact { h with world := hx core.world h.world }

theorem busAt_eq_some {address : ℕ} {bus : MMIOBus W} (h : busAt m address = some bus) :
    m.mmioBus = some bus ∧ bus.hasDeviceAt address = true := Option.filter_eq_some_iff.mp h

/-- A data read of User mode touches its window or a device below it. -/
theorem keeps_readDataMemory (hk : k.Fits m) (address : ℕ) :
    Keeps (UserExec k) (readDataMemory m address) := by
  refine (Triple.bind (requireDataMemoryAccess_triple address _) fun _ core h => ?_).keeps
  cases hb : busAt m address with
  | some bus =>
    obtain ⟨hbus, hdevice⟩ := busAt_eq_some hb
    exact (keeps_zoom_world (hk.bus_read bus hbus address hdevice h.2)).triple core h.1
  | none =>
    simp only [readMemory_apply]
    rcases core.state.memory.read address with e | value <;> exact h.1

/-- A data write of User mode touches its window or a device below it. -/
theorem keeps_writeDataMemory (hk : k.Fits m) (address : ℕ) (value : Word) :
    Keeps (UserExec k) (writeDataMemory m address value) := by
  refine (Triple.bind (requireDataMemoryAccess_triple address _) fun _ core h => ?_).keeps
  cases hb : busAt m address with
  | some bus =>
    obtain ⟨hbus, hdevice⟩ := busAt_eq_some hb
    exact (keeps_zoom_world (hk.bus_write bus hbus address value hdevice h.2)).triple core h.1
  | none =>
    simp only [writeMemory_apply]
    cases hc : core.state.memory.checkRange address 8 with
    | error e => exact h.1
    | ok u =>
      refine userExec_store h.1 value (Memory.checkRange_eq_ok.mp hc) fun i hi => ?_
      have := (hk.frozen_outside i hi).1
      omega

/-- A push stays on the User stack. -/
theorem keeps_pushValue (hk : k.Fits m) (value : Word) : Keeps (UserExec k) (pushValue value) := by
  intro core h
  rw [pushValue_apply]
  cases hc : checkPush core with
  | error e => exact h
  | ok u =>
    obtain ⟨⟨hge, hal, hle⟩, hsize⟩ := checkPush_eq_ok.mp hc
    rw [(activeStack_user h.privilege).1] at hge hal
    rw [(activeStack_user h.privilege).2] at hle
    refine userExec_moveSp (userExec_store h value hsize fun i hi => ?_) (by omega) hle (by omega)
    have := hk.frozen_outside i hi
    omega

/-- A pop stays on the User stack. -/
theorem keeps_popValue : Keeps (UserExec k) popValue := by
  intro core h
  rw [popValue_apply]
  cases hc : topValue core with
  | error e => exact h
  | ok value =>
    obtain ⟨⟨hge, hal, hle⟩, -, -⟩ := topValue_eq_ok.mp hc
    rw [(activeStack_user h.privilege).1] at hge hal
    rw [(activeStack_user h.privilege).2] at hle
    exact userExec_moveSp h (by omega) (by omega) (by omega)

/-- Reading the top of the stack stays in User mode. -/
theorem keeps_peekValue : Keeps (UserExec k) peekValue := by
  intro core h
  rw [peekValue_apply]
  exact h

/-! ## Operands -/

/-- Reading an operand stays in User mode. -/
theorem keeps_readSource (hk : k.Fits m) (operand : OperandView) :
    Keeps (UserExec k) (readSource m operand) := by
  refine Keeps.get.bind fun core => (Keeps.lift _).bind fun source => ?_
  cases source with
  | inl value => exact Keeps.pure value
  | inr address => exact keeps_readDataMemory hk address

theorem keeps_readAddress (operand : OperandView) : Keeps (UserExec k) (readAddress operand) :=
  Keeps.get.bind fun _ => Keeps.lift _

theorem keeps_requireRegister (operand : OperandView) :
    Keeps (UserExec k) (requireRegister operand) :=
  (Keeps.lift _).bind fun _ => Keeps.pure _

theorem keeps_writeRegister (operand : OperandView) (value : Word) :
    Keeps (UserExec k) (writeRegister operand value) :=
  (Keeps.lift _).bind fun reg => keeps_setRegister reg value

/-! ## Instructions -/

/-- `m` starts on an instruction and, whether it returns or throws, ends where a next step may
start. -/
abbrev Confined (k : Confinement W) {α : Type} (x : Op W α) : Prop :=
  Triple (UserExec k) x (fun _ => UserRunning k) (fun _ => UserRunning k)

/-- A part of an instruction that keeps PC is followed by the rest of it. -/
theorem Confined.after {α β : Type} {x : Op W α} {f : α → Op W β} (hx : Keeps (UserExec k) x)
    (hf : ∀ a, Confined k (f a)) : Confined k (x >>= f) :=
  Triple.bind (hx.triple.conseq (fun _ h => h) (fun _ _ h => h) fun _ _ h => h.toUserRunning) hf

theorem Confined.of_keeps {α : Type} {x : Op W α} (hx : Keeps (UserExec k) x) : Confined k x :=
  hx.triple.conseq (fun _ h => h) (fun _ _ h => h.toUserRunning) fun _ _ h => h.toUserRunning

/-- The rest of an instruction may use what its check established. -/
theorem Confined.check {α β : Type} {r : Except Str α} {f : α → Op W β}
    (hf : ∀ a, r = .ok a → Confined k (f a)) : Confined k (Exec.lift r >>= f) := by
  intro core h
  cases r with
  | error e => exact h.toUserRunning
  | ok a => exact hf a rfl core h

/-- The rest of an instruction may use that the state it read satisfies the invariant. -/
theorem Confined.read {α : Type} {f : Core W → Op W α}
    (hf : ∀ core, UserExec k core → Confined k (f core)) : Confined k (Exec.get >>= f) :=
  fun core h => hf core h core h

/-- Going on to the next instruction is confined: PC may reach the end of the code. -/
theorem confined_advance (e : Engine) (he : e.size = 24) :
    Confined k (advanceUnlessHalted e.size) := by
  intro core h
  have hge := h.pc_ge
  have hal : (core.state.pc + 24) % 24 = 512 % 24 := by
    have := h.pc_aligned
    omega
  have heq : advanceUnlessHalted e.size core
      = (.ok (), core.updateState fun state => { state with pc := state.pc + 24 }) := by
    simp [advanceUnlessHalted, modifyState, Core.updateState, h.not_halted, he]
  rw [heq]
  exact { h with
    pc_ge := by show 512 ≤ core.state.pc + 24; omega
    pc_le := h.pc_in_code
    pc_aligned := hal }

/-- Setting PC to a code address. -/
theorem userRunning_setPc {core : Core W} (h : UserExec k core) {pc : ℕ}
    (hpc : IsCodeAddress k.len pc) :
    UserRunning k (core.updateState fun state => { state with pc := pc }) := by
  obtain ⟨hge, hle, hal⟩ := hpc
  exact { h with pc_ge := hge, pc_le := by show pc ≤ _; omega, pc_aligned := hal }

/-- A checked jump is confined. -/
theorem confined_setPcForExecution (hk : k.Fits m) (address : ℕ) :
    Confined k (setPcForExecution m address) := by
  intro core h
  simp only [setPcForExecution, bind_apply, get_apply, lift_apply, h.privilege]
  cases hc : requireExecutionAddress m address .user with
  | error e => exact h.toUserRunning
  | ok u =>
    exact userRunning_setPc h ((requireExecutionAddress_user hk.toUserSetup address).mp hc)

/-- The last part of a move is confined. -/
theorem confined_finishMove (e : Engine) (he : e.size = 24) (operand : OperandView)
    (value : Word) : Confined k (finishMove e operand value) :=
  .after (keeps_writeRegister operand value) fun _ =>
    .after (keeps_modifyFlags _) fun _ => confined_advance e he

/-- The last part of an arithmetic instruction is confined. -/
theorem confined_finishALU (e : Engine) (he : e.size = 24) (operand : OperandView)
    (result : ALUResult) : Confined k (finishALU e operand result) :=
  .after (keeps_writeRegister operand result.value) fun _ =>
    .after (keeps_modifyFlags _) fun _ => confined_advance e he

/-- An arithmetic instruction is confined. -/
theorem confined_performALU (hk : k.Fits m) {e : Engine} (he : e.size = 24)
    (op : Word → Word → Except Str ALUResult) (i : InstructionView) :
    Confined k (performALU op e m i) :=
  .check fun _ _ => .after (keeps_requireRegister i.dst) fun _ =>
    .after (keeps_readSource hk i.dst) fun _ => .after (keeps_readSource hk i.src) fun _ =>
      .check fun result _ => confined_finishALU e he i.dst result

/-- A comparison is confined. -/
theorem confined_performComparison (hk : k.Fits m) {e : Engine} (he : e.size = 24)
    (op : Word → Word → ALUResult) (i : InstructionView) :
    Confined k (performComparison op e m i) :=
  .check fun _ _ => .after (keeps_readSource hk i.dst) fun _ =>
    .after (keeps_readSource hk i.src) fun _ => .after (keeps_modifyFlags _) fun _ =>
      confined_advance e he

theorem confined_performJump (hk : k.Fits m) (operand : OperandView) :
    Confined k (performJump m operand) :=
  .check fun target _ => confined_setPcForExecution hk target

/-- A conditional jump is confined. -/
theorem confined_performBranch (hk : k.Fits m) {e : Engine} (he : e.size = 24)
    (taken : Flags → Bool) (i : InstructionView) : Confined k (performBranch taken e m i) := by
  refine .check fun _ _ => .read fun core _ => ?_
  split
  · exact confined_performJump hk i.dst
  · exact confined_advance e he

/-- A call is confined. -/
theorem confined_performCall (hk : k.Fits m) (e : Engine) (i : InstructionView) :
    Confined k (performCall e m i) := by
  refine .check fun _ _ => .check fun target _ => .read fun core h => .check fun _ htarget =>
    .check fun _ _ => .after (keeps_pushValue hk _) fun _ core' h' => ?_
  rw [h.privilege] at htarget
  exact userRunning_setPc h' ((requireExecutionAddress_user hk.toUserSetup target).mp htarget)

/-- A return is confined. -/
theorem confined_performRet (hk : k.Fits m) (e : Engine) (i : InstructionView) :
    Confined k (performRet e m i) := by
  refine .check fun _ _ => .after keeps_peekValue fun _ => .check fun returnAddress _ =>
    .read fun core h => .check fun _ htarget => .after keeps_popValue fun _ core' h' => ?_
  rw [h.privilege] at htarget
  exact userRunning_setPc h' ((requireExecutionAddress_user hk.toUserSetup returnAddress).mp htarget)

/-- In User mode the privileged opcodes throw before they do anything. -/
theorem confined_privileged {opcode : Opcode} (hp : opcode ∈ [.HALT, .IRET, .EI, .DI])
    {f : Unit → Op W Unit} : Confined k (requireInstructionPrivilege opcode >>= f) := by
  intro core h
  have hu : core.state.isUserMode = true := by simp [CPUState.isUserMode, h.privilege]
  simp only [List.mem_cons, List.not_mem_nil, or_false] at hp
  rcases hp with rfl | rfl | rfl | rfl <;>
  · simp only [requireInstructionPrivilege, bind_apply, get_apply, hu]
    exact h.toUserRunning

/-- The privilege check stays in User mode. -/
theorem keeps_requireInstructionPrivilege (opcode : Opcode) :
    Keeps (UserExec k) (requireInstructionPrivilege opcode) := by
  refine Keeps.get.bind fun core => ?_
  split
  · exact Keeps.pure _
  · split
    all_goals first | exact Keeps.throw _ | exact Keeps.pure _

/-- Every instruction but `INT` stays inside the confinement, whatever its operands. -/
theorem confined_perform [LongDouble] (hk : k.Fits m) {e : Engine} (he : e.size = 24)
    (i : InstructionView) (hi : i.opcode ≠ .INT) : Confined k (perform e m i) := by
  have hkeep := keeps_requireInstructionPrivilege (k := k) i.opcode
  unfold perform
  -- The privileged instructions are refused before anything else; the others stay in the window by
  -- the checks of their accesses.
  cases hop : i.opcode with
  | HALT | IRET | EI | DI => exact confined_privileged (by simp)
  | INT => exact absurd hop hi
  | NOP => exact .after (hop ▸ hkeep) fun _ => .check fun _ _ => confined_advance e he
  | MOV =>
    exact .after (hop ▸ hkeep) fun _ => .check fun _ _ => .after (keeps_requireRegister _) fun _ =>
      .after (keeps_readSource hk _) fun value => confined_finishMove e he _ value
  | LOAD =>
    exact .after (hop ▸ hkeep) fun _ => .check fun _ _ => .after (keeps_requireRegister _) fun _ =>
      .after (keeps_readAddress _) fun address => .after (keeps_readDataMemory hk address) fun value =>
        confined_finishMove e he _ value
  | STORE =>
    exact .after (hop ▸ hkeep) fun _ => .check fun _ _ => .after (keeps_readAddress _) fun address =>
      .after (keeps_readSource hk _) fun value => .after (keeps_writeDataMemory hk address value)
        fun _ => .after (keeps_modifyFlags _) fun _ => confined_advance e he
  | ADD | SUB | MUL | DIV | AND | OR | XOR =>
    exact .after (hop ▸ hkeep) fun _ => confined_performALU hk he _ i
  | NOT =>
    exact .after (hop ▸ hkeep) fun _ => .check fun _ _ => .after (keeps_requireRegister _) fun _ =>
      .after (keeps_readSource hk _) fun value => confined_finishALU e he _ _
  | CMP | TEST => exact .after (hop ▸ hkeep) fun _ => confined_performComparison hk he _ i
  | JMP => exact .after (hop ▸ hkeep) fun _ => .check fun _ _ => confined_performJump hk _
  | JE | JNE | JG | JL => exact .after (hop ▸ hkeep) fun _ => confined_performBranch hk he _ i
  | PUSH =>
    exact .after (hop ▸ hkeep) fun _ => .check fun _ _ => .after (keeps_readSource hk _) fun value =>
      .after (keeps_pushValue hk value) fun _ => confined_advance e he
  | POP =>
    exact .after (hop ▸ hkeep) fun _ => .check fun _ _ => .after (keeps_requireRegister _) fun _ =>
      .after keeps_popValue fun value => confined_finishMove e he _ value
  | CALL => exact .after (hop ▸ hkeep) fun _ => confined_performCall hk e i
  | RET => exact .after (hop ▸ hkeep) fun _ => confined_performRet hk e i
  | Invalid => exact .after (hop ▸ hkeep) fun _ => .of_keeps (Keeps.throw _)

/-! ## Software interrupts without a host handler -/

/-- A vector without handler is refused before the interrupt frame is pushed. -/
theorem confined_enterVectorHandler (hk : k.Fits m) {r : Ref W InterruptController}
    (hr : m.interruptController = some r) (vector : UInt8) (returnAddress : ℕ)
    (handlerOk : ℕ → Bool) (handlerError : Str) :
    Confined k (enterVectorHandler r vector returnAddress handlerOk handlerError) := by
  intro core h
  have hv : (r.get core.world).vectorTable vector = none :=
    hk.no_vector r hr core.world h.world vector
  simp only [enterVectorHandler, bind_apply, get_apply, lift_apply,
    InterruptController.vectorHandler, hv]
  exact h.toUserRunning

/-- Without a host handler there is nothing to serve. -/
theorem serviceHostSoftwareInterrupt_of_none (hm : m.softwareInterruptHandler = none)
    (vector : UInt8) (returnAddress : ℕ) :
    serviceHostSoftwareInterrupt m vector returnAddress = pure false := by
  rw [serviceHostSoftwareInterrupt, hm]

/-- Without a host handler `INT` is confined: there is no vector to enter. -/
theorem confined_performInt (hk : k.Fits m) (hm : m.softwareInterruptHandler = none) (e : Engine)
    (i : InstructionView) : Confined k (performInt e m i) := by
  refine .check fun _ _ => ?_
  cases hr : m.interruptController with
  | none => exact .of_keeps (Keeps.throw _)
  | some r =>
    refine .after (keeps_readSource hk _) fun value => .check fun vector _ => .read fun core _ => ?_
    simp only [serviceHostSoftwareInterrupt_of_none hm]
    exact confined_enterVectorHandler hk hr vector _ _ _

/-- Without a host handler every encoded instruction stays inside the confinement. -/
theorem confined_executeBinaryInstruction [LongDouble] (hk : k.Fits m)
    (hm : m.softwareInterruptHandler = none) (instruction : DecodedInstruction) :
    Confined k (executeBinaryInstruction m instruction) := by
  rw [executeBinaryInstruction_eq_perform]
  by_cases hop : (instruction.view m).opcode = .INT
  · unfold perform
    rw [hop]
    exact .after (keeps_requireInstructionPrivilege _) fun _ => confined_performInt hk hm _ _
  · exact confined_perform hk rfl _ hop

/-! ## Steps -/

/-- Devices tick in their own world. -/
theorem keeps_tickDevices {devices : List (ClockedDevice W)}
    (htick : ∀ device ∈ devices, Keeps k.worldOk device.tick) :
    Keeps (UserRunning k) (tickDevices devices) := by
  induction devices with
  | nil => exact Keeps.pure _
  | cons device rest ih =>
    refine Keeps.bind ?_ fun _ => ih fun d hd => htick d (List.mem_cons_of_mem _ hd)
    intro core h
    exact { h with world := htick device List.mem_cons_self core.world h.world }

/-- The clock ticks in its own world. -/
theorem keeps_tickUnlessStopped (hk : k.Fits m) : Keeps (UserRunning k) (tickUnlessStopped m) := by
  refine Keeps.get.bind fun core => ?_
  split
  · exact keeps_tickDevices hk.tick
  · exact Keeps.pure _

/-- With no vector handler there is never an interrupt to deliver. -/
theorem servicePendingInterruptIfNeeded_apply (hk : k.Fits m) {core : Core W}
    (hw : k.worldOk core.world) : servicePendingInterruptIfNeeded m core = (.ok false, core) := by
  simp only [servicePendingInterruptIfNeeded, bind_apply, get_apply]
  cases hr : m.interruptController with
  | none => rfl
  | some r =>
    have := InterruptController.hasPending_of_vectorTable (hk.no_vector r hr core.world hw)
    simp only [this]
    rfl

/-- A fetch succeeds only on an instruction of the code section. -/
theorem fetched_inCode (hk : k.Fits m) {core : Core W} (h : UserContext k core)
    {decoded : DecodedInstruction} {instruction : Instruction}
    (hf : fetched m core.state = .ok (decoded, instruction)) :
    core.state.pc + 24 ≤ 512 + k.len := by
  obtain ⟨u, hpc, -⟩ := bind_eq_ok.mp hf
  rw [h.privilege] at hpc
  exact ((requireExecutionAddress_user hk.toUserSetup _).mp hpc).2.1

/-- The error state keeps the invariant. -/
theorem userContext_setRuntimeError {core : Core W} (h : UserContext k core) (message : Str) :
    UserContext k (setRuntimeError message core) := { h with }

/-- One step stays inside the confinement, whether it executes, faults or does nothing. -/
theorem step_confined [LongDouble] (hk : k.Fits m) (hm : m.softwareInterruptHandler = none)
    {cpu : CPU W} (hsetup : cpu.setup = m) (h : UserContext k cpu.core) :
    cpu.step.setup = m ∧ UserContext k cpu.step.core := by
  unfold step
  split_ifs with hstop
  · exact ⟨hsetup, h⟩
  · rw [not_or, Bool.not_eq_true, Bool.not_eq_true] at hstop
    set core : Core W := { cpu.core with softwareInterruptObservation := none }
    have hrun : UserRunning k core := { h with not_halted := hstop.1, no_error := hstop.2 }
    simp only [hsetup, servicePendingInterruptIfNeeded_apply hk hrun.world]
    rw [stepInstruction_binary (by rw [hsetup]; exact hk.binary), hsetup]
    cases hf : fetched m core.state with
    | error message => exact ⟨hsetup, userContext_setRuntimeError hrun.toUserContext message⟩
    | ok p =>
      obtain ⟨decoded, instruction⟩ := p
      have hexec : UserExec k core :=
        { hrun with pc_in_code := fetched_inCode hk hrun.toUserContext hf }
      -- The instruction and then the devices' tick.
      have hbody : Confined k (finishInstruction m (executeBinaryInstruction m decoded)) :=
        Triple.bind (confined_executeBinaryInstruction hk hm decoded) fun _ =>
          (keeps_tickUnlessStopped hk).triple
      have hpost := hbody core hexec
      simp only
      generalize finishInstruction m (executeBinaryInstruction m decoded) core = outcome at hpost ⊢
      rcases outcome with ⟨message | u, core'⟩
      · exact ⟨hsetup, userContext_setRuntimeError hpost.toUserContext message⟩
      · exact ⟨hsetup, hpost.toUserContext⟩

/-- Every state of a run stays inside the confinement. -/
theorem steps_confined [LongDouble] (hk : k.Fits m) (hm : m.softwareInterruptHandler = none)
    (n : ℕ) {cpu : CPU W} (hsetup : cpu.setup = m) (h : UserContext k cpu.core) :
    UserContext k (steps n cpu).core := by
  induction n generalizing cpu with
  | zero => exact h
  | succ n ih =>
    obtain ⟨hsetup', h'⟩ := step_confined hk hm hsetup h
    exact ih hsetup' h'

end CPU

end ZeroCpu
