import ZeroCpu.Core.Stack
import ZeroCpu.Core.Step

/-!
# Two CPUs executing matching instructions

Two CPUs in User mode execute instructions whose operands mean the same. A `Matching` says how
their code addresses and their worlds correspond, which memory bytes are compared, and whether they
throw the same messages too. `Agree` is the relation between the CPUs, and every instruction keeps
it: both return or both throw. It covers the two engines on one program (addresses differ, messages
differ) and one process in two runs (nothing may differ but the world).
-/

namespace ZeroCpu

open Library Exec

variable {W W' α β γ δ : Type}

/-- Two outcomes agree: values are related and errors equal when `strict` holds. -/
def Matches (strict : Prop) (R : α → β → Prop) : Except Str α → Except Str β → Prop
  | .ok a, .ok b => R a b
  | .error e, .error e' => strict → e = e'
  | _, _ => False

/-- A result matches itself. -/
theorem Matches.refl {strict : Prop} {R : α → α → Prop} (hR : ∀ a, R a a) (r : Except Str α) :
    Matches strict R r r := by
  rcases r with e | a
  · exact fun _ => rfl
  · exact hR a

/-- A weaker relation on the values. -/
theorem Matches.mono {strict : Prop} {R S : α → β → Prop} {r : Except Str α} {r' : Except Str β}
    (h : Matches strict R r r') (hRS : ∀ a b, R a b → S a b) : Matches strict S r r' := by
  rcases r with e | a <;> rcases r' with e' | b
  · exact h
  · exact h.elim
  · exact h.elim
  · exact hRS a b h

/-- How two CPUs in User mode correspond. -/
structure Matching (W W' : Type) where
  /-- The code address of the second CPU for one of the first. -/
  pc : ℕ → ℕ
  /-- The memory bytes that are compared. -/
  visible : ℕ → Prop
  /-- What is known of the two worlds. -/
  world : W → W' → Prop
  /-- Whether the messages thrown are compared. -/
  strict : Prop

/-- The parts of two CPUs in User mode that a program can observe correspond. -/
structure AgreeState (c : Matching W W') (s : Core W) (t : Core W') : Prop where
  user : s.state.privilegeLevel = .user
  user' : t.state.privilegeLevel = .user
  registers : s.state.registers = t.state.registers
  flags : s.state.flags = t.state.flags
  sp : s.state.sp = t.state.sp
  halted : s.state.halted = t.state.halted
  hasError : s.state.hasError = t.state.hasError
  errorMessage : c.strict → s.state.errorMessage = t.state.errorMessage
  kernel_sp : s.kernelStackPointer = t.kernelStackPointer
  idle : s.usingKernelInterruptStack = false
  idle' : t.usingKernelInterruptStack = false
  memory_size : s.state.memory.size = 4096
  memory_size' : t.state.memory.size = 4096
  memory : ∀ i, c.visible i → s.state.memory.byteAt i = t.state.memory.byteAt i
  pc : t.state.pc = c.pc s.state.pc

/-- Two CPUs in User mode correspond, their worlds included. -/
structure Agree (c : Matching W W') (s : Core W) (t : Core W') : Prop
    extends AgreeState c s t where
  world : c.world s.world t.world

/-- Two devices in the data window that cannot be told apart. -/
def BusMatches (c : Matching W W') (address : ℕ) :
    Option (MMIOBus W) → Option (MMIOBus W') → Prop
  | none, none => True
  | some bus, some bus' =>
      Related c.world (bus.read address) (bus'.read address)
        (fun a b s t => a = b ∧ c.world s t) (fun e e' _ _ => c.strict → e = e')
      ∧ ∀ value, Related c.world (bus.write address value) (bus'.write address value)
        (fun _ _ => c.world) (fun e e' _ _ => c.strict → e = e')
  | _, _ => False

/-- The matching suits two CPUs. -/
structure Matching.Fits (c : Matching W W') (m : Setup W) (m' : Setup W') : Prop where
  window : ∀ i, i < 512 ∨ (2048 ≤ i ∧ i < 4000) → c.visible i
  bus : ∀ address, address + 8 ≤ 512 →
    BusMatches c address (CPU.busAt m address) (CPU.busAt m' address)
  executable : ∀ address, Matches c.strict (fun _ _ => True)
    (CPU.requireExecutionAddress m address .user)
    (CPU.requireExecutionAddress m' (c.pc address) .user)

/-- The two engines move PC by corresponding distances. -/
structure Matching.FitsEngines (c : Matching W W') (e e' : Engine) : Prop where
  advance : ∀ address, c.pc (address + e.size) = c.pc address + e'.size
  returnError : c.strict → e.returnError = e'.returnError
  invalidOpcode : c.strict → e.invalidOpcode = e'.invalidOpcode

/-- Two operands mean the same in every place. -/
structure OperandMatches (c : Matching W W') (v v' : OperandView) : Prop where
  register : Matches c.strict Eq v.register v'.register
  address : ∀ registers, Matches c.strict Eq (v.address registers) (v'.address registers)
  source : ∀ registers, Matches c.strict Eq (v.source registers) (v'.source registers)
  target : Matches c.strict (fun a b => b = c.pc a) v.target v'.target

/-- Without a host handler and without vector handlers an `INT` can only fault. -/
structure NoInterrupts (c : Matching W W') (m : Setup W) (m' : Setup W') : Prop where
  handler : m.softwareInterruptHandler = none
  handler' : m'.softwareInterruptHandler = none
  connected : m.interruptController.isSome = m'.interruptController.isSome
  no_vector : ∀ r, m.interruptController = some r → ∀ w w', c.world w w' →
    ∀ vector, (r.get w).vectorTable vector = none
  no_vector' : ∀ r, m'.interruptController = some r → ∀ w w', c.world w w' →
    ∀ vector, (r.get w').vectorTable vector = none

/-- Two instructions mean the same. A return address is data, so `CALL` and `RET` need equal code
addresses. -/
structure InstructionMatches (c : Matching W W') (m : Setup W) (m' : Setup W')
    (i i' : InstructionView) : Prop where
  opcode : i.opcode = i'.opcode
  noOperand : Matches c.strict Eq i.noOperand i'.noOperand
  oneOperand : Matches c.strict Eq i.oneOperand i'.oneOperand
  twoOperands : Matches c.strict Eq i.twoOperands i'.twoOperands
  dst : OperandMatches c i.dst i'.dst
  src : OperandMatches c i.src i'.src
  calls : i.opcode = .CALL ∨ i.opcode = .RET → c.pc = id
  interrupts : i.opcode = .INT → NoInterrupts c m m'

/-- Two computations keep the agreement: both return, with `Q`-related results, or both throw. -/
def Sim (c : Matching W W') (x : Op W α) (y : Op W' β) (Q : α → β → Prop) : Prop :=
  Related (Agree c) x y (fun a b s t => Q a b ∧ Agree c s t)
    (fun e e' s t => (c.strict → e = e') ∧ AgreeState c s t)

section Rules

variable {c : Matching W W'} {Q : α → β → Prop} {R : γ → δ → Prop}

theorem Sim.bind {x : Op W α} {y : Op W' β} {f : α → Op W γ} {g : β → Op W' δ}
    (hx : Sim c x y Q) (hf : ∀ a b, Q a b → Sim c (f a) (g b) R) : Sim c (x >>= f) (y >>= g) R :=
  Related.bind hx fun a b s t h => hf a b h.1 s t h.2

theorem Sim.pure {a : α} {b : β} (h : Q a b) :
    Sim c (pure a : Op W α) (pure b : Op W' β) Q := Related.pure fun _ _ hst => ⟨h, hst⟩

/-- Both sides throw, and the same message when the agreement is strict. -/
theorem Sim.throw {e e' : Str} (h : c.strict → e = e') :
    Sim c (Exec.throw e : Op W α) (Exec.throw e' : Op W' β) Q :=
  Related.throw fun _ _ hst => ⟨h, hst.toAgreeState⟩

/-- The rule of `lift` for a simulation. -/
theorem Sim.lift {r : Except Str α} {r' : Except Str β} (h : Matches c.strict Q r r') :
    Sim c (Exec.lift r : Op W α) (Exec.lift r') Q := by
  intro s t hst
  rcases r with e | a <;> rcases r' with e' | b
  · exact ⟨h, hst.toAgreeState⟩
  · exact h.elim
  · exact h.elim
  · exact ⟨h, hst⟩

/-- Both computations may use the states they read. -/
theorem Sim.read {f : Core W → Op W γ} {g : Core W' → Op W' δ}
    (h : ∀ s t, Agree c s t → Sim c (f s) (g t) R) : Sim c (Exec.get >>= f) (Exec.get >>= g) R :=
  fun s t hst => h s t hst s t hst

theorem Sim.modify {f : Core W → Core W} {g : Core W' → Core W'}
    (h : ∀ s t, Agree c s t → Agree c (f s) (g t)) :
    Sim c (Exec.modify f) (Exec.modify g) Eq := Related.modify fun s t hst => ⟨rfl, h s t hst⟩

end Rules

/-- Two memories agreeing on the bytes of a word agree on reading it. -/
theorem Memory.read_congr {m m' : Memory} (hsize : m.size = m'.size) {address : ℕ}
    (hb : ∀ i, address ≤ i → i < address + 8 → m.byteAt i = m'.byteAt i) :
    m.read address = m'.read address := by
  unfold Memory.read Memory.readU64
  rw [Memory.checkRange_congr hsize]
  cases hc : m'.checkRange address 8 with
  | error e => rfl
  | ok u =>
    have hle := Memory.checkRange_eq_ok.mp hc
    rw [Memory.slice_congr (by omega) hle hb]

namespace CPU

variable {c : Matching W W'} {m : Setup W} {m' : Setup W'}

/-! ## Memory and stack -/

/-- The same word stored on both sides keeps the agreement. -/
theorem agree_store {s : Core W} {t : Core W'} (h : Agree c s t) {address : ℕ} (value : Word)
    (hle : address + 8 ≤ 4096) : Agree c (s.store address value) (t.store address value) := by
  have hlen : address + (leBytes 8 value).length ≤ s.state.memory.size := by
    rw [length_leBytes, h.memory_size]
    exact hle
  have hlen' : address + (leBytes 8 value).length ≤ t.state.memory.size := by
    rw [length_leBytes, h.memory_size']
    exact hle
  refine { h with memory_size := ?_, memory_size' := ?_, memory := ?_ }
  · exact (Memory.size_splice hlen).trans h.memory_size
  · exact (Memory.size_splice hlen').trans h.memory_size'
  · intro i hi
    show (s.state.memory.splice _ _).byteAt i = (t.state.memory.splice _ _).byteAt i
    rw [Memory.byteAt_splice hlen, Memory.byteAt_splice hlen', h.memory i hi]

/-- The same stack pointer on both sides keeps the agreement. -/
theorem agree_moveSp {s : Core W} {t : Core W'} (h : Agree c s t) (sp : ℕ) :
    Agree c (s.moveSp sp) (t.moveSp sp) := by
  refine { h with sp := rfl, kernel_sp := ?_ }
  show (if s.usingKernelInterruptStack then sp else s.kernelStackPointer)
    = if t.usingKernelInterruptStack then sp else t.kernelStackPointer
  rw [h.idle, h.idle']
  exact h.kernel_sp

/-- Setting the same register keeps the agreement. -/
theorem sim_setRegister (reg : RegisterName) (value : Word) :
    Sim c (setRegister reg value) (setRegister reg value) Eq := by
  refine Sim.modify fun s t h => { h with registers := ?_ }
  show s.state.registers.set reg value = t.state.registers.set reg value
  rw [h.registers]

/-- Changing FLAGS in the same way keeps the agreement. -/
theorem sim_modifyFlags (f : Flags → Flags) : Sim c (modifyFlags f) (modifyFlags f) Eq := by
  refine Sim.modify fun s t h => { h with flags := ?_ }
  show f s.state.flags = f t.state.flags
  rw [h.flags]

theorem sim_setPc {address address' : ℕ} (hpc : address' = c.pc address) :
    Sim c (setPc address) (setPc address') Eq :=
  Sim.modify fun _ _ h => { h with pc := hpc }

/-- Both engines go on to the next instruction. -/
theorem sim_advance {e e' : Engine} (he : c.FitsEngines e e') :
    Sim c (advanceUnlessHalted e.size) (advanceUnlessHalted e'.size) Eq := by
  refine Sim.modify fun s t h => ?_
  cases hs : s.state.halted with
  | true =>
    have ht : t.state.halted = true := h.halted ▸ hs
    simp only [Core.updateState, hs, ht, Bool.not_true, Bool.false_eq_true, if_false]
    exact h
  | false =>
    have ht : t.state.halted = false := h.halted ▸ hs
    simp only [Core.updateState, hs, ht, Bool.not_false, if_true]
    refine { h with pc := ?_, halted := rfl }
    show t.state.pc + e'.size = c.pc (s.state.pc + e.size)
    rw [he.advance, h.pc]

theorem isUserMode_eq {core : Core W} (h : core.state.privilegeLevel = .user) :
    core.state.isUserMode = true := by
  simp [CPUState.isUserMode, h]

/-- A data access that passes is inside the window, for both CPUs. -/
theorem sim_requireDataMemoryAccess (address : ℕ) (operation : Str) :
    Sim c (requireDataMemoryAccess address operation) (requireDataMemoryAccess address operation)
      (fun _ _ => address + 8 ≤ 512) := by
  refine Sim.read fun s t h => ?_
  rw [isUserMode_eq h.user, isUserMode_eq h.user', Bool.not_true, Bool.false_or]
  by_cases hr : MemoryMap.isUserDataRange address 8 = true
  · rw [hr]
    exact Sim.pure ((MemoryMap.isUserDataRange_iff address 8).mp hr)
  · rw [Bool.not_eq_true] at hr
    rw [hr]
    exact Sim.throw fun _ => rfl

/-- The agreement reaches through a device access. -/
theorem sim_zoom_world {x : Exec Str W α} {y : Exec Str W' β} {Q : α → β → Prop}
    (h : Related c.world x y (fun a b s t => Q a b ∧ c.world s t)
      (fun e e' _ _ => c.strict → e = e')) :
    Sim c (Exec.zoom Core.worldRef x) (Exec.zoom Core.worldRef y) Q := by
  intro s t hst
  have hr := h s.world t.world hst.world
  simp only [Exec.zoom_apply, Core.worldRef]
  generalize x s.world = out at hr ⊢
  generalize y t.world = out' at hr ⊢
  rcases out with ⟨e | a, w⟩ <;> rcases out' with ⟨e' | b, w'⟩
  · exact ⟨hr, { hst.toAgreeState with }⟩
  · exact hr.elim
  · exact hr.elim
  · exact ⟨hr.1, { hst with world := hr.2 }⟩

/-- A word that is visible reads the same on both sides. -/
theorem sim_readMemory {address : ℕ} (hv : ∀ i, address ≤ i → i < address + 8 → c.visible i) :
    Sim c (readMemory address : Op W Word) (readMemory address) Eq := by
  refine Sim.read fun s t h => Sim.lift ?_
  rw [Memory.read_congr (h.memory_size.trans h.memory_size'.symm)
    fun i h1 h2 => h.memory i (hv i h1 h2)]
  exact Matches.refl (fun _ => rfl) _

/-- The same word written inside RAM keeps the agreement. -/
theorem sim_writeMemory {address : ℕ} (hle : address + 8 ≤ 4096) (value : Word) :
    Sim c (writeMemory address value) (writeMemory address value) Eq := by
  intro s t h
  rw [writeMemory_apply, writeMemory_apply,
    Memory.checkRange_eq_ok.mpr (by rw [h.memory_size]; exact hle),
    Memory.checkRange_eq_ok.mpr (by rw [h.memory_size']; exact hle)]
  exact ⟨rfl, agree_store h value hle⟩

/-- Both sides read the same data, or both are refused. -/
theorem sim_readDataMemory (hc : c.Fits m m') (address : ℕ) :
    Sim c (readDataMemory m address) (readDataMemory m' address) Eq := by
  refine (sim_requireDataMemoryAccess address _).bind fun _ _ hle => ?_
  have hbus := hc.bus address hle
  cases hb : busAt m address with
  | none =>
    cases hb' : busAt m' address with
    | none => exact sim_readMemory fun i h1 h2 => hc.window i (.inl (by omega))
    | some bus' => rw [hb, hb'] at hbus; exact hbus.elim
  | some bus =>
    cases hb' : busAt m' address with
    | none => rw [hb, hb'] at hbus; exact hbus.elim
    | some bus' =>
      rw [hb, hb'] at hbus
      exact sim_zoom_world hbus.1

/-- Both sides write the same data, or both are refused. -/
theorem sim_writeDataMemory (hc : c.Fits m m') (address : ℕ) (value : Word) :
    Sim c (writeDataMemory m address value) (writeDataMemory m' address value) Eq := by
  refine (sim_requireDataMemoryAccess address _).bind fun _ _ hle => ?_
  have hbus := hc.bus address hle
  cases hb : busAt m address with
  | none =>
    cases hb' : busAt m' address with
    | none => exact sim_writeMemory (by omega) value
    | some bus' => rw [hb, hb'] at hbus; exact hbus.elim
  | some bus =>
    cases hb' : busAt m' address with
    | none => rw [hb, hb'] at hbus; exact hbus.elim
    | some bus' =>
      rw [hb, hb'] at hbus
      exact sim_zoom_world ((hbus.2 value).conseq (fun _ _ h => h) (fun _ _ _ _ h => ⟨rfl, h⟩)
        fun _ _ _ _ h => h)

/-- Both sides have room on the stack, or neither has. -/
theorem checkPush_congr {s : Core W} {t : Core W'} (h : AgreeState c s t) :
    checkPush s = checkPush t := by
  unfold checkPush
  rw [(activeStack_user h.user).1, (activeStack_user h.user).2, (activeStack_user h.user').1,
    (activeStack_user h.user').2, h.sp,
    Memory.checkRange_congr (h.memory_size.trans h.memory_size'.symm)]

/-- The top of the User stack is in the window, so both CPUs see the same word. -/
theorem topValue_congr (hc : c.Fits m m') {s : Core W} {t : Core W'} (h : AgreeState c s t) :
    topValue s = topValue t := by
  unfold topValue
  rw [(activeStack_user h.user).1, (activeStack_user h.user).2, (activeStack_user h.user').1,
    (activeStack_user h.user').2, h.sp]
  cases hp : requireStackPopSlotsAt t.state.sp 2048 4000 1 with
  | error e => rfl
  | ok u =>
    obtain ⟨⟨h1, -, h2⟩, h3⟩ := requireStackPopSlotsAt_eq_ok.mp hp
    refine Memory.read_congr (h.memory_size.trans h.memory_size'.symm) fun i hi hi' => ?_
    exact h.memory i (hc.window i (.inr (by omega)))

/-- Pushing the same word keeps the agreement. -/
theorem sim_pushValue (value : Word) :
    Sim c (pushValue value : Op W Unit) (pushValue value) Eq := by
  intro s t h
  rw [pushValue_apply, pushValue_apply, checkPush_congr h.toAgreeState]
  cases hp : checkPush t with
  | error e => exact ⟨fun _ => rfl, h.toAgreeState⟩
  | ok u =>
    have hle : t.state.sp + 8 ≤ 4096 := h.memory_size' ▸ (checkPush_eq_ok.mp hp).2
    rw [h.sp]
    exact ⟨rfl, agree_moveSp (agree_store h value hle) _⟩

/-- Both sides pop the same word. -/
theorem sim_popValue (hc : c.Fits m m') :
    Sim c (popValue : Op W Word) popValue Eq := by
  intro s t h
  rw [popValue_apply, popValue_apply, topValue_congr hc h.toAgreeState]
  cases hp : topValue t with
  | error e => exact ⟨fun _ => rfl, h.toAgreeState⟩
  | ok value =>
    rw [h.sp]
    exact ⟨rfl, agree_moveSp h _⟩

/-- Both sides see the same word on top of the stack. -/
theorem sim_peekValue (hc : c.Fits m m') :
    Sim c (peekValue : Op W Word) peekValue Eq := by
  intro s t h
  rw [peekValue_apply, peekValue_apply, topValue_congr hc h.toAgreeState]
  cases hp : topValue t with
  | error e => exact ⟨fun _ => rfl, h.toAgreeState⟩
  | ok value => exact ⟨rfl, h⟩

/-! ## Operands -/

/-- Matching operands have the same value. -/
theorem sim_readSource (hc : c.Fits m m') {v v' : OperandView} (hv : OperandMatches c v v') :
    Sim c (readSource m v) (readSource m' v') Eq := by
  refine Sim.read fun s t h => ?_
  rw [h.registers]
  refine (Sim.lift (hv.source _)).bind fun a b hab => ?_
  subst hab
  cases a with
  | inl value => exact Sim.pure rfl
  | inr address => exact sim_readDataMemory hc address

/-- Matching operands have the same address. -/
theorem sim_readAddress {v v' : OperandView} (hv : OperandMatches c v v') :
    Sim c (readAddress v : Op W ℕ) (readAddress v') Eq := by
  refine Sim.read fun s t h => ?_
  rw [h.registers]
  exact Sim.lift (hv.address _)

theorem sim_requireRegister {v v' : OperandView} (hv : OperandMatches c v v') :
    Sim c (requireRegister v : Op W Unit) (requireRegister v') Eq :=
  (Sim.lift hv.register).bind fun _ _ _ => Sim.pure rfl

/-- Matching operands are the same register to write. -/
theorem sim_writeRegister {v v' : OperandView} (hv : OperandMatches c v v') (value : Word) :
    Sim c (writeRegister v value : Op W Unit) (writeRegister v' value) Eq := by
  refine (Sim.lift hv.register).bind fun a b hab => ?_
  subst hab
  exact sim_setRegister a value

/-! ## Instructions -/

/-- In User mode the privileged instructions are refused on both sides. -/
theorem sim_requireInstructionPrivilege (opcode : Opcode) :
    Sim c (requireInstructionPrivilege opcode : Op W Unit) (requireInstructionPrivilege opcode)
      (fun _ _ => opcode ∉ [.HALT, .IRET, .EI, .DI]) := by
  refine Sim.read fun s t h => ?_
  rw [isUserMode_eq h.user, isUserMode_eq h.user']
  cases opcode with
  | HALT | IRET | EI | DI => exact Sim.throw fun _ => rfl
  | _ => exact Sim.pure (by simp)

/-- The last part of a move keeps the agreement. -/
theorem sim_finishMove {e e' : Engine} (he : c.FitsEngines e e') {v v' : OperandView}
    (hv : OperandMatches c v v') (value : Word) :
    Sim c (finishMove e v value : Op W Unit) (finishMove e' v' value) Eq :=
  (sim_writeRegister hv value).bind fun _ _ _ =>
    (sim_modifyFlags _).bind fun _ _ _ => sim_advance he

/-- The last part of an arithmetic instruction keeps the agreement. -/
theorem sim_finishALU {e e' : Engine} (he : c.FitsEngines e e') {v v' : OperandView}
    (hv : OperandMatches c v v') (result : ALUResult) :
    Sim c (finishALU e v result : Op W Unit) (finishALU e' v' result) Eq :=
  (sim_writeRegister hv result.value).bind fun _ _ _ =>
    (sim_modifyFlags _).bind fun _ _ _ => sim_advance he

section Instructions

variable {e e' : Engine} {i i' : InstructionView}

/-- Matching arithmetic instructions keep the agreement. -/
theorem sim_performALU (hc : c.Fits m m') (he : c.FitsEngines e e')
    (hi : InstructionMatches c m m' i i') (op : Word → Word → Except Str ALUResult) :
    Sim c (performALU op e m i) (performALU op e' m' i') Eq := by
  refine (Sim.lift hi.twoOperands).bind fun _ _ _ => (sim_requireRegister hi.dst).bind fun _ _ _ =>
    (sim_readSource hc hi.dst).bind fun lhs _ hl => (sim_readSource hc hi.src).bind
      fun rhs _ hr => ?_
  subst hl hr
  refine (Sim.lift (Matches.refl (fun _ => rfl) (op lhs rhs))).bind fun result _ h => ?_
  subst h
  exact sim_finishALU he hi.dst result

/-- Matching comparisons keep the agreement. -/
theorem sim_performComparison (hc : c.Fits m m') (he : c.FitsEngines e e')
    (hi : InstructionMatches c m m' i i') (op : Word → Word → ALUResult) :
    Sim c (performComparison op e m i) (performComparison op e' m' i') Eq := by
  refine (Sim.lift hi.twoOperands).bind fun _ _ _ => (sim_readSource hc hi.dst).bind
    fun lhs _ hl => (sim_readSource hc hi.src).bind fun rhs _ hr => ?_
  subst hl hr
  exact (sim_modifyFlags _).bind fun _ _ _ => sim_advance he

/-- Matching addresses are executable together. -/
theorem sim_requireExecutionAddress (hc : c.Fits m m') {s : Core W} {t : Core W'}
    (h : Agree c s t) {address address' : ℕ} (ha : address' = c.pc address) :
    Sim c (Exec.lift (requireExecutionAddress m address s.state.privilegeLevel))
      (Exec.lift (requireExecutionAddress m' address' t.state.privilegeLevel))
      (fun _ _ => True) := by
  rw [h.user, h.user', ha]
  exact Sim.lift (hc.executable address)

/-- Matching jumps keep the agreement. -/
theorem sim_performJump (hc : c.Fits m m') {v v' : OperandView} (hv : OperandMatches c v v') :
    Sim c (performJump m v) (performJump m' v') Eq :=
  (Sim.lift hv.target).bind fun _ _ hb => Sim.read fun _ _ h =>
    (sim_requireExecutionAddress hc h hb).bind fun _ _ _ => sim_setPc hb

/-- Matching conditional jumps keep the agreement. -/
theorem sim_performBranch (hc : c.Fits m m') (he : c.FitsEngines e e')
    (hi : InstructionMatches c m m' i i') (taken : Flags → Bool) :
    Sim c (performBranch taken e m i) (performBranch taken e' m' i') Eq := by
  refine (Sim.lift hi.oneOperand).bind fun _ _ _ => Sim.read fun s t h => ?_
  rw [h.flags]
  cases taken t.state.flags with
  | true => exact sim_performJump hc hi.dst
  | false => exact sim_advance he

/-- Matching calls keep the agreement when the addresses are the same, since they are pushed. -/
theorem sim_performCall (hc : c.Fits m m') (he : c.FitsEngines e e')
    (hi : InstructionMatches c m m' i i') (hid : c.pc = id) :
    Sim c (performCall e m i) (performCall e' m' i') Eq := by
  refine (Sim.lift hi.oneOperand).bind fun _ _ _ => (Sim.lift hi.dst.target).bind
    fun target _ htarget => Sim.read fun s t h => ?_
  have hreturn : t.state.pc + e'.size = c.pc (s.state.pc + e.size) := by
    rw [he.advance, h.pc]
  have hsame : t.state.pc + e'.size = s.state.pc + e.size := by
    rw [hreturn, hid]
    rfl
  refine (sim_requireExecutionAddress hc h htarget).bind fun _ _ _ =>
    (sim_requireExecutionAddress hc h hreturn).bind fun _ _ _ => ?_
  rw [hsame]
  exact (sim_pushValue _).bind fun _ _ _ => sim_setPc htarget

/-- Matching returns keep the agreement when the addresses are the same. -/
theorem sim_performRet (hc : c.Fits m m') (he : c.FitsEngines e e')
    (hi : InstructionMatches c m m' i i') (hid : c.pc = id) :
    Sim c (performRet e m i) (performRet e' m' i') Eq := by
  refine (Sim.lift hi.noOperand).bind fun _ _ _ => (sim_peekValue hc).bind fun value _ hv => ?_
  subst hv
  have hmatch : Matches c.strict Eq (checkedReturnAddress value e.returnError)
      (checkedReturnAddress value e'.returnError) := by
    unfold checkedReturnAddress checkedSize
    split_ifs
    · exact he.returnError
    · exact (rfl : value.toNat = value.toNat)
  refine (Sim.lift hmatch).bind fun target _ ht => Sim.read fun s t h => ?_
  subst ht
  have hpc : target = c.pc target := by rw [hid]; rfl
  exact (sim_requireExecutionAddress hc h hpc).bind fun _ _ _ =>
    (sim_popValue hc).bind fun _ _ _ => sim_setPc hpc

/-- Without a vector table neither side enters a handler. -/
theorem sim_enterVectorHandler (hm : NoInterrupts c m m') {r : Ref W InterruptController}
    {r' : Ref W' InterruptController} (hr : m.interruptController = some r)
    (hr' : m'.interruptController = some r') (vector : UInt8) (a a' : ℕ) (ok ok' : ℕ → Bool)
    (error error' : Str) :
    Sim c (enterVectorHandler r vector a ok error) (enterVectorHandler r' vector a' ok' error')
      Eq := by
  refine Sim.read fun s t h => ?_
  rw [InterruptController.vectorHandler, hm.no_vector r hr _ _ h.world,
    InterruptController.vectorHandler, hm.no_vector' r' hr' _ _ h.world]
  exact fun s t h => ⟨fun _ => rfl, h.toAgreeState⟩

/-- Without handlers neither side serves a software interrupt. -/
theorem sim_performInt (hc : c.Fits m m') (hi : InstructionMatches c m m' i i')
    (hm : NoInterrupts c m m') : Sim c (performInt e m i) (performInt e' m' i') Eq := by
  refine (Sim.lift hi.oneOperand).bind fun _ _ _ => ?_
  have hconnected := hm.connected
  cases hr : m.interruptController with
  | none =>
    cases hr' : m'.interruptController with
    | none => exact Sim.throw fun _ => rfl
    | some r' => simp [hr, hr'] at hconnected
  | some r =>
    cases hr' : m'.interruptController with
    | none => simp [hr, hr'] at hconnected
    | some r' =>
      refine (sim_readSource hc hi.dst).bind fun value _ hv => ?_
      subst hv
      refine (Sim.lift (Matches.refl (fun _ => rfl) (interruptVector value))).bind
        fun vector _ hvector => Sim.read fun s t h => ?_
      subst hvector
      simp only [serviceHostSoftwareInterrupt, hm.handler, hm.handler']
      exact sim_enterVectorHandler hm hr hr' vector _ _ _ _ _ _

/-- Matching instructions keep the agreement. -/
theorem sim_perform [LongDouble] (hc : c.Fits m m') (he : c.FitsEngines e e')
    (hi : InstructionMatches c m m' i i') : Sim c (perform e m i) (perform e' m' i') Eq := by
  unfold perform
  rw [← hi.opcode]
  refine (sim_requireInstructionPrivilege i.opcode).bind fun _ _ huser => ?_
  -- Both engines run one `perform`, so the parts agree in order; values read are equal and
  -- substituted.
  cases hop : i.opcode with
  | HALT | IRET | EI | DI => simp [hop] at huser
  | NOP => exact (Sim.lift hi.noOperand).bind fun _ _ _ => sim_advance he
  | MOV =>
    refine (Sim.lift hi.twoOperands).bind fun _ _ _ => (sim_requireRegister hi.dst).bind
      fun _ _ _ => (sim_readSource hc hi.src).bind fun value _ hv => ?_
    subst hv
    exact sim_finishMove he hi.dst value
  | LOAD =>
    refine (Sim.lift hi.twoOperands).bind fun _ _ _ => (sim_requireRegister hi.dst).bind
      fun _ _ _ => (sim_readAddress hi.src).bind fun address _ ha => ?_
    subst ha
    refine (sim_readDataMemory hc address).bind fun value _ hv => ?_
    subst hv
    exact sim_finishMove he hi.dst value
  | STORE =>
    refine (Sim.lift hi.twoOperands).bind fun _ _ _ => (sim_readAddress hi.dst).bind
      fun address _ ha => (sim_readSource hc hi.src).bind fun value _ hv => ?_
    subst ha hv
    exact (sim_writeDataMemory hc address value).bind fun _ _ _ =>
      (sim_modifyFlags _).bind fun _ _ _ => sim_advance he
  | ADD | SUB | MUL | DIV | AND | OR | XOR => exact sim_performALU hc he hi _
  | NOT =>
    refine (Sim.lift hi.oneOperand).bind fun _ _ _ => (sim_requireRegister hi.dst).bind
      fun _ _ _ => (sim_readSource hc hi.dst).bind fun value _ hv => ?_
    subst hv
    exact sim_finishALU he hi.dst _
  | CMP | TEST => exact sim_performComparison hc he hi _
  | JMP => exact (Sim.lift hi.oneOperand).bind fun _ _ _ => sim_performJump hc hi.dst
  | JE | JNE | JG | JL => exact sim_performBranch hc he hi _
  | PUSH =>
    refine (Sim.lift hi.oneOperand).bind fun _ _ _ => (sim_readSource hc hi.dst).bind
      fun value _ hv => ?_
    subst hv
    exact (sim_pushValue value).bind fun _ _ _ => sim_advance he
  | POP =>
    refine (Sim.lift hi.oneOperand).bind fun _ _ _ => (sim_requireRegister hi.dst).bind
      fun _ _ _ => (sim_popValue hc).bind fun value _ hv => ?_
    subst hv
    exact sim_finishMove he hi.dst value
  | CALL => exact sim_performCall hc he hi (hi.calls (.inl hop))
  | RET => exact sim_performRet hc he hi (hi.calls (.inr hop))
  | INT => exact sim_performInt hc hi (hi.interrupts hop)
  | Invalid => exact Sim.throw he.invalidOpcode

end Instructions

/-! ## Steps -/

/-- Two CPUs that threw agree again once what they threw has become their error. -/
theorem agree_settle_error {e e' : Str} {s : Core W} {t : Core W'} (he : c.strict → e = e')
    (h : AgreeState c s t) :
    AgreeState c (settle (.error e, s)) (settle (.error e', t))
      ∧ ((settle (.error e, s)).state.halted = false →
        c.world (settle (.error e, s)).world (settle (.error e', t)).world) :=
  ⟨{ h with halted := rfl, hasError := rfl, errorMessage := he }, nofun⟩

/-- Two CPUs agree after matching instructions, whether these returned or threw. -/
theorem agree_settle {out : Except Str Unit × Core W} {out' : Except Str Unit × Core W'}
    (h : RelPost (fun _ _ => Agree c) (fun e e' s t => (c.strict → e = e') ∧ AgreeState c s t)
      out out') :
    AgreeState c (settle out) (settle out')
      ∧ ((settle out).state.halted = false → c.world (settle out).world (settle out').world) := by
  rcases out with ⟨e | u, s⟩ <;> rcases out' with ⟨e' | u', t⟩
  · exact agree_settle_error h.1 h.2
  · exact h.elim
  · exact h.elim
  · exact ⟨h.toAgreeState, fun _ => h.world⟩

end CPU

end ZeroCpu
