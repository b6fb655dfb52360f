import ZeroCpu.Trace.Details
import ZeroCpu.Trace.Executed

/-!
# The stack words a trace reports

Reference: `src/trace/TraceEvent.cpp`.

A `TraceEvent` looks for the word of a `PUSH` or `CALL` in the list of changed memory. An entry of
that list is one byte, so what it finds is the low byte of the word, and nothing where the slot held
that byte before. The words of `POP` and `RET` are read from a register, from PC and from the memory
before the step, and are right.
-/

namespace ZeroCpu

open Library

variable {W : Type}

/-! ## One entry of the changed memory -/

/-- The change at an address, when there is one, is found under it. -/
theorem findMemoryChangeAt_changedMemory {event : TraceEvent} {address : ℕ}
    (hbefore : address < event.before.memory.size) (hafter : address < event.after.memory.size) :
    findMemoryChangeAt event.changedMemory address = event.memoryChange address := by
  have haddress : ∀ other change, event.memoryChange other = some change → change.address = other := by
    intro other change hchange
    obtain ⟨-, hchange⟩ := Option.ite_none_right_eq_some.mp hchange
    exact congrArg MemoryChange.address (Option.some.inj hchange).symm
  have hmem : address ∈ List.range (min event.before.memory.size event.after.memory.size) :=
    List.mem_range.mpr (lt_min hbefore hafter)
  cases hfound : findMemoryChangeAt event.changedMemory address with
  | none =>
    cases hchange : event.memoryChange address with
    | none => rfl
    | some change =>
      have hlisted := List.mem_filterMap.mpr ⟨address, hmem, hchange⟩
      have hother := List.find?_eq_none.mp hfound change hlisted
      exact absurd (beq_iff_eq.mpr (haddress _ _ hchange)) hother
  | some found =>
    obtain ⟨other, -, hchange⟩ := List.mem_filterMap.mp (List.mem_of_find?_eq_some hfound)
    have hsame := List.find?_some (p := fun change : MemoryChange => change.address == address) hfound
    rw [beq_iff_eq] at hsame
    rw [← hsame, haddress _ _ hchange, hchange]

/-- The byte of a word that is stored first. -/
def lowByte (word : Word) : UInt8 := UInt8.ofBitVec (word.setWidth 8)

theorem toNat_lowByte (word : Word) : (lowByte word).toNat = word.toNat % 256 := by
  show (word.setWidth 8).toNat = _
  rw [BitVec.toNat_setWidth]

/-- The word that shows a byte is the whole word only below 256. -/
theorem ofNat_lowByte_eq_iff (word : Word) :
    BitVec.ofNat 64 (lowByte word).toNat = word ↔ word.toNat < 256 := by
  rw [toNat_lowByte, ← BitVec.toNat_inj, BitVec.toNat_ofNat]
  have hmod := Nat.mod_lt word.toNat (show 0 < 256 by decide)
  omega

/-! ## What a stack instruction moves -/

namespace TraceEvent

/-- The step of the event has written `word` at the stack pointer and moved it up. -/
structure Pushed (event : TraceEvent) (word : Word) : Prop where
  inside : event.before.sp + 8 ≤ event.before.memory.size
  written : event.after.memory = event.before.memory.splice event.before.sp (leBytes 8 word)
  sp : event.after.sp = event.before.sp + 8

/-- The step of the event has moved the stack pointer down to `word`. -/
structure Popped (event : TraceEvent) (word : Word) : Prop where
  inside : event.before.sp ≤ event.before.memory.size
  read : word = leWord 64 (event.before.memory.slice event.after.sp 8)
  sp : event.after.sp + 8 = event.before.sp

/-- `word` is the word the step has written to the stack or read from it. -/
def Moves (m : Setup W) (event : TraceEvent) (word : Word) : Prop :=
  match event.instruction.opcode with
  | .PUSH => event.Pushed word
  | .POP => event.Popped word ∧
      ∃ reg, event.instruction.dst = .register reg ∧ event.after.registers reg = word
  | .CALL => event.Pushed word ∧
      word = Word.ofSize (event.before.pc + Reference.instructionSize m)
  | .RET => event.Popped word ∧ event.after.pc = word.toNat
  | _ => False

/-- The address of the slot in question. -/
def stackSlot (event : TraceEvent) : ℕ :=
  match event.instruction.opcode with
  | .PUSH | .CALL => event.before.sp
  | _ => event.after.sp

/-- The event reports `word` at its slot and, for `CALL` and `RET`, as the return address. -/
structure ReportsWord (event : TraceEvent) (word : Word) : Prop where
  stack_address : event.stackDetail.stack_address = event.stackSlot
  has_value : event.stackDetail.has_value = true
  value : event.stackDetail.value = word
  return_address : event.instruction.opcode = .CALL ∨ event.instruction.opcode = .RET →
    event.stackDetail.has_return_address = true ∧ event.stackDetail.return_address = word
      ∧ event.callReturnDetail.return_address = word.toNat

/-- The memory of a state holds `word` at `address`. -/
def RamHolds (state : CPUState) (address : ℕ) (word : Word) : Prop :=
  address + 8 ≤ state.memory.size ∧ word = leWord 64 (state.memory.slice address 8)

/-- One changed byte, or the operand read again, is enough to tell `word`. -/
def Recoverable (event : TraceEvent) (word : Word) : Prop :=
  match event.instruction.opcode with
  | .PUSH =>
      if event.before.memory.byteAt event.before.sp = lowByte word then
        ∀ address, resolveTraceMemoryAddress event.before event.instruction.dst = .ok address →
          RamHolds event.before address word
      else word.toNat < 256
  | .CALL => event.before.memory.byteAt event.before.sp ≠ lowByte word ∧ word.toNat < 256
  | _ => True

/-- A push leaves the size of the memory alone. -/
theorem Pushed.size {event : TraceEvent} {word : Word} (h : event.Pushed word) :
    event.after.memory.size = event.before.memory.size := by
  rw [h.written, Memory.size_splice]
  rw [length_leBytes]
  exact h.inside

/-- There is one word a step can have pushed. -/
theorem Pushed.word_eq {event : TraceEvent} {word : Word} (h : event.Pushed word) :
    word = leWord 64 (event.after.memory.slice event.before.sp 8) := by
  have hself := @Memory.slice_splice_self event.before.memory event.before.sp (leBytes 8 word)
    (by rw [length_leBytes]; exact h.inside)
  rw [length_leBytes] at hself
  rw [h.written, hself]
  exact (leWord_leBytes (n := 8) word).symm

/-- The entry of the changed memory at the slot of a push: the low byte of the word, unless the slot
held it before. -/
theorem Pushed.find {event : TraceEvent} {word : Word} (h : event.Pushed word) :
    findMemoryChangeAt event.changedMemory event.before.sp
      = if event.before.memory.byteAt event.before.sp = lowByte word then none
        else some ⟨event.before.sp, event.before.memory.snapshotAt event.before.sp,
          BitVec.ofNat 64 (lowByte word).toNat⟩ := by
  have hinside := h.inside
  have hsize := h.size
  have hbyte : event.after.memory.byteAt event.before.sp = lowByte word := by
    rw [h.written, Memory.byteAt_splice (by rw [length_leBytes]; exact hinside),
      if_pos (by rw [length_leBytes]; omega), Nat.sub_self]
    rfl
  rw [findMemoryChangeAt_changedMemory (by omega) (by omega)]
  simp only [memoryChange, Memory.snapshotAt, hbyte]
  by_cases hsame : event.before.memory.byteAt event.before.sp = lowByte word
  · rw [if_pos hsame, if_neg (by rw [hsame]; exact fun h => h rfl)]
  · rw [if_neg hsame, if_pos]
    intro heq
    refine hsame (UInt8.toNat_inj.mp ?_)
    have hlt := (event.before.memory.byteAt event.before.sp).toNat_lt
    have hlt' := (lowByte word).toNat_lt
    have := congrArg BitVec.toNat heq
    rwa [BitVec.toNat_ofNat, BitVec.toNat_ofNat, Nat.mod_eq_of_lt (by omega),
      Nat.mod_eq_of_lt (by omega)] at this

end TraceEvent

/-! ## The stack instructions -/

namespace CPU

open Exec

variable {m : Setup W} {e : Engine} {i : InstructionView} {r : Reference.Instruction}
  {s s' : Core W}

/-- A push stores its word and moves the stack pointer. -/
theorem pushValue_eq_ok {word : Word} {u : Unit} (h : pushValue word s = (.ok u, s')) :
    s.state.sp + 8 ≤ s.state.memory.size
      ∧ s' = (s.store s.state.sp word).moveSp (s.state.sp + 8) := by
  rw [pushValue_apply] at h
  cases hcheck : checkPush s with
  | error message => rw [hcheck] at h; cases (Prod.ext_iff.mp h).1
  | ok u =>
    rw [hcheck] at h
    exact ⟨(checkPush_eq_ok.mp hcheck).2, (Prod.ext_iff.mp h).2.symm⟩

/-- The word on top of the stack lies inside the memory. -/
theorem topValue_inside {word : Word} (h : topValue s = .ok word) :
    8 ≤ s.state.sp ∧ s.state.sp ≤ s.state.memory.size
      ∧ word = leWord 64 (s.state.memory.slice (s.state.sp - 8) 8) := by
  obtain ⟨⟨hbase, -, -⟩, hsize, hword⟩ := topValue_eq_ok.mp h
  exact ⟨by omega, hsize, hword⟩

/-- A pop returns the top and moves the stack pointer. -/
theorem popValue_eq_ok {word : Word} (h : popValue s = (.ok word, s')) :
    topValue s = .ok word ∧ s' = s.moveSp (s.state.sp - 8) := by
  rw [popValue_apply] at h
  cases hcheck : topValue s with
  | error message => rw [hcheck] at h; cases (Prod.ext_iff.mp h).1
  | ok top =>
    rw [hcheck] at h
    obtain ⟨hword, hs'⟩ := Prod.ext_iff.mp h
    exact ⟨hword, hs'.symm⟩

/-- A `PUSH` that returns has pushed the value of its operand. -/
theorem perform_push [LongDouble] (hi : i.Denotes r) (hop : i.opcode = .PUSH)
    (hs : s.state.halted = false) (h : perform e m i s = (.ok (), s')) :
    ∃ word world, Reference.value m s s.world r.dst = some (word, world)
      ∧ s.state.sp + 8 ≤ s.state.memory.size
      ∧ s'.state = { s.state with
        memory := s.state.memory.splice s.state.sp (leBytes 8 word)
        sp := s.state.sp + 8
        pc := s.state.pc + e.size } := by
  rw [perform, hop, bind_of_ok (requireInstructionPrivilege_eq rfl), lift_bind_eq_ok] at h
  obtain ⟨_, -, h⟩ := h
  obtain ⟨word, s₁, hvalue, h⟩ := Exec.bind_eq_ok.mp h
  obtain ⟨world, hread, rfl⟩ := readSource_conforms hi.dst hvalue
  obtain ⟨_, pushed, hpush, h⟩ := Exec.bind_eq_ok.mp h
  obtain ⟨hinside, rfl⟩ := pushValue_eq_ok hpush
  refine ⟨word, world, hread, hinside, ?_⟩
  rw [advance_conforms h hs]
  rfl

/-- A `POP` that returns has put the word below the stack pointer into its register. -/
theorem perform_pop [LongDouble] (hi : i.Denotes r) (hop : i.opcode = .POP)
    (hs : s.state.halted = false) (h : perform e m i s = (.ok (), s')) :
    ∃ word reg, topValue s = .ok word ∧ r.dst = .register reg
      ∧ s'.state.registers reg = word ∧ s'.state.sp = s.state.sp - 8 := by
  rw [perform, hop, bind_of_ok (requireInstructionPrivilege_eq rfl)] at h
  simp only [↓lift_bind_eq_ok, ↓requireRegister_bind_eq_ok] at h
  obtain ⟨_, -, ⟨reg, hreg⟩, h⟩ := h
  obtain ⟨word, popped, hpop, h⟩ := Exec.bind_eq_ok.mp h
  obtain ⟨htop, rfl⟩ := popValue_eq_ok hpop
  refine ⟨word, reg, htop, hi.dst.register _ hreg, ?_⟩
  rw [finishMove_conforms hreg h hs]
  exact ⟨RegisterFile.set_self .., rfl⟩

/-- A `CALL` that returns has pushed the address of the next instruction. -/
theorem perform_call [LongDouble] (hop : i.opcode = .CALL) (h : perform e m i s = (.ok (), s')) :
    ∃ target, s.state.sp + 8 ≤ s.state.memory.size
      ∧ s'.state = { s.state with
        memory := s.state.memory.splice s.state.sp
          (leBytes 8 (Word.ofSize (s.state.pc + e.size)))
        sp := s.state.sp + 8
        pc := target } := by
  rw [perform, hop, bind_of_ok (requireInstructionPrivilege_eq rfl)] at h
  simp only [performCall, ↓lift_bind_eq_ok, ↓get_bind_eq_ok] at h
  obtain ⟨_, -, target, -, _, -, _, -, h⟩ := h
  obtain ⟨_, pushed, hpush, h⟩ := Exec.bind_eq_ok.mp h
  obtain ⟨hinside, rfl⟩ := pushValue_eq_ok hpush
  refine ⟨target, hinside, ?_⟩
  rw [← modify_eq_ok.mp h]
  rfl

/-- A `RET` that returns has gone to the word below the stack pointer. -/
theorem perform_ret [LongDouble] (hop : i.opcode = .RET) (h : perform e m i s = (.ok (), s')) :
    ∃ word, topValue s = .ok word ∧ s'.state.pc = word.toNat ∧ s'.state.sp = s.state.sp - 8 := by
  rw [perform, hop, bind_of_ok (requireInstructionPrivilege_eq rfl)] at h
  simp only [performRet, ↓lift_bind_eq_ok] at h
  obtain ⟨_, -, h⟩ := h
  obtain ⟨word, s₁, hpeek, h⟩ := Exec.bind_eq_ok.mp h
  rw [peekValue_apply] at hpeek
  obtain ⟨htop, rfl⟩ := Prod.ext_iff.mp hpeek
  simp only [↓lift_bind_eq_ok, ↓get_bind_eq_ok] at h
  obtain ⟨address, haddress, _, -, h⟩ := h
  obtain ⟨_, s₂, hpop, h⟩ := Exec.bind_eq_ok.mp h
  obtain ⟨-, rfl⟩ := popValue_eq_ok hpop
  refine ⟨word, htop, ?_⟩
  rw [← modify_eq_ok.mp h]
  exact ⟨(checkedSize_eq_ok_iff.mp haddress).2, rfl⟩

/-- The value that the event reads again from a pushed operand is the value the CPU has read, unless
a device answered in place of the memory. -/
theorem readTraceOperandValue_iff {operand : Operand} {o : Reference.Operand}
    (hshows : Shows operand o) {word : Word} {world world' : W}
    (hvalue : Reference.value m s world o = some (word, world')) :
    readTraceOperandValue s.state operand = .ok word
      ↔ ∀ address, resolveTraceMemoryAddress s.state operand = .ok address →
        TraceEvent.RamHolds s.state address word := by
  cases hshows with
  | none | relocated | label | malformed => cases hvalue
  | register reg =>
    obtain ⟨rfl, -⟩ := Prod.ext_iff.mp (Option.some.inj hvalue)
    exact iff_of_true rfl nofun
  | immediate value =>
    obtain ⟨rfl, -⟩ := Prod.ext_iff.mp (Option.some.inj hvalue)
    exact iff_of_true rfl nofun
  | memory address =>
    rw [readTraceOperandValue, Memory.read_eq_ok]
    exact ⟨fun h _ heq => Except.ok.inj heq ▸ h, fun h => h _ rfl⟩
  | indirect reg =>
    obtain ⟨address, haddress, -⟩ := Option.bind_eq_some_iff.mp hvalue
    have hnonneg : ¬ (s.state.registers reg).toInt < 0 := by
      intro hneg
      rw [Reference.Operand.asAddress, if_pos hneg] at haddress
      cases haddress
    rw [readTraceOperandValue, resolveTraceMemoryAddress, if_neg hnonneg, if_neg hnonneg,
      Memory.read_eq_ok]
    exact ⟨fun h _ heq => Except.ok.inj heq ▸ h, fun h => h _ rfl⟩

/-- The opcodes that move a word to or from the stack. -/
def movesWord : Opcode → Bool
  | .PUSH | .POP | .CALL | .RET => true
  | _ => false

section Executed

variable [LongDouble] {cpu : CPU W} {event : TraceEvent} {after : Core W}

/-- The instruction that is performed is the one in the event. -/
theorem Executes.performed_as (h : Executes cpu event e i r after) :
    i.opcode = event.instruction.opcode := h.denotes.opcode.trans h.opcode.symm

/-- A `PUSH` has pushed a word, and that is what the event reads from the operand where the
operand is not a device. -/
theorem Executes.pushed (h : Executes cpu event e i r after)
    (hop : event.instruction.opcode = .PUSH) :
    ∃ word, event.Pushed word
      ∧ (readTraceOperandValue event.before event.instruction.dst = .ok word
        ↔ ∀ address, resolveTraceMemoryAddress event.before event.instruction.dst = .ok address →
          TraceEvent.RamHolds event.before address word) := by
  obtain ⟨word, world, hvalue, hinside, hstate⟩ :=
    perform_push (s := cpu.stepCore) h.denotes (h.performed_as.trans hop) h.running h.performed
  rw [← h.after] at hstate
  refine ⟨word, ⟨?_, ?_, ?_⟩, ?_⟩
  · rw [h.before]
    exact hinside
  · rw [hstate, h.before]
    rfl
  · rw [hstate, h.before]
    rfl
  · rw [h.before]
    exact readTraceOperandValue_iff h.dst hvalue

/-- Where a word was popped from. -/
theorem Executes.popped (h : Executes cpu event e i r after) {word : Word}
    (htop : topValue cpu.stepCore = .ok word)
    (hsp : after.state.sp = cpu.stepCore.state.sp - 8) : event.Popped word := by
  obtain ⟨hbase, hinside, hword⟩ := topValue_inside htop
  rw [← h.after] at hsp
  have hbefore : event.before.sp = cpu.stepCore.state.sp := by rw [h.before]; rfl
  refine ⟨?_, ?_, by omega⟩
  · rw [h.before]
    exact hinside
  · rw [hsp, h.before]
    exact hword

/-- An executed stack instruction has moved a word. -/
theorem Executes.moves (h : Executes cpu event e i r after)
    (hop : movesWord event.instruction.opcode = true) : ∃ word, event.Moves cpu.setup word := by
  unfold TraceEvent.Moves
  -- What each stack instruction does to the word on top.
  cases hcase : event.instruction.opcode with
  | PUSH =>
    obtain ⟨word, hpushed, -⟩ := h.pushed hcase
    exact ⟨word, hpushed⟩
  | POP =>
    obtain ⟨word, reg, htop, hdst, hreg, hsp⟩ :=
      perform_pop (s := cpu.stepCore) h.denotes (h.performed_as.trans hcase) h.running h.performed
    refine ⟨word, h.popped htop hsp, reg, (hdst ▸ h.dst).eq_register, ?_⟩
    rw [h.after]
    exact hreg
  | CALL =>
    obtain ⟨target, hinside, hstate⟩ :=
      perform_call (s := cpu.stepCore) (h.performed_as.trans hcase) h.performed
    rw [← h.after] at hstate
    refine ⟨_, ⟨?_, ?_, ?_⟩, rfl⟩
    · rw [h.before]
      exact hinside
    · rw [hstate, h.before, h.size]
      rfl
    · rw [hstate, h.before]
      rfl
  | RET =>
    obtain ⟨word, htop, hpc, hsp⟩ :=
      perform_ret (s := cpu.stepCore) (h.performed_as.trans hcase) h.performed
    refine ⟨word, h.popped htop hsp, ?_⟩
    rw [h.after]
    exact hpc
  | _ =>
    rw [hcase] at hop
    cases hop

end Executed

end CPU

namespace TraceEvent

/-! ## What the details say -/

/-- Filling in the pushed word leaves the slot alone. -/
theorem stack_address_withPushedOperand (event : TraceEvent) (detail : StackTraceDetail) :
    (event.withPushedOperand detail).stack_address = detail.stack_address := by
  unfold withPushedOperand
  split <;> rfl

/-- A push that changes the low byte of its slot is reported by that byte. -/
theorem Pushed.reported {event : TraceEvent} {word : Word}
    (hop : event.instruction.opcode = .PUSH) (h : event.Pushed word)
    (hdiffers : event.before.memory.byteAt event.before.sp ≠ lowByte word) :
    event.stackDetail.stack_address = event.before.sp ∧ event.stackDetail.has_value = true
      ∧ event.stackDetail.value = BitVec.ofNat 64 (lowByte word).toNat := by
  simp only [stackDetail, hop, pushDetail, withPushedChange, stack_address_withPushedOperand, h.find,
    if_neg hdiffers]
  exact ⟨trivial, trivial, trivial⟩

/-- The report of a `PUSH` shows the word exactly when it can be recovered. -/
theorem reportsWord_push {event : TraceEvent} {word : Word}
    (hop : event.instruction.opcode = .PUSH) (h : event.Pushed word)
    (hread : readTraceOperandValue event.before event.instruction.dst = .ok word
      ↔ ∀ address, resolveTraceMemoryAddress event.before event.instruction.dst = .ok address →
        RamHolds event.before address word) :
    event.ReportsWord word ↔ event.Recoverable word := by
  have hdetail : event.stackDetail = event.pushDetail := by rw [stackDetail, hop]
  have hslot : event.stackSlot = event.before.sp := by rw [stackSlot, hop]
  have hcall : ¬ (event.instruction.opcode = .CALL ∨ event.instruction.opcode = .RET) := by
    rw [hop]
    exact nofun
  have hrecoverable : event.Recoverable word
      ↔ if event.before.memory.byteAt event.before.sp = lowByte word then
          readTraceOperandValue event.before event.instruction.dst = .ok word
        else word.toNat < 256 := by
    simp only [Recoverable, hop, hread]
  rw [hrecoverable]
  by_cases hsame : event.before.memory.byteAt event.before.sp = lowByte word
  · -- no entry: the value is that of the operand
    have hpush : event.pushDetail = event.withPushedOperand { event.stackBase with
        is_push := true
        stack_address := event.before.sp
        has_stack_address := true } := by
      simp only [pushDetail, withPushedChange, stack_address_withPushedOperand, h.find, if_pos hsame]
    rw [if_pos hsame]
    rw [hpush, withPushedOperand] at hdetail
    cases hvalue : readTraceOperandValue event.before event.instruction.dst with
    | error note =>
      rw [hvalue] at hdetail
      refine ⟨fun hreports => ?_, nofun⟩
      have := hreports.has_value
      rw [hdetail] at this
      cases this
    | ok value =>
      rw [hvalue] at hdetail
      refine ⟨fun hreports => ?_, fun heq => ⟨?_, ?_, ?_, fun h => absurd h hcall⟩⟩
      · rw [← hreports.value, hdetail]
      · rw [hdetail, hslot]
      · rw [hdetail]
      · rw [hdetail]
        exact Except.ok.inj heq
  · obtain ⟨hstack, hhas, hvalue⟩ := h.reported hop hsame
    rw [if_neg hsame, ← ofNat_lowByte_eq_iff, ← hvalue]
    exact ⟨fun hreports => hreports.value,
      fun heq => ⟨hstack.trans hslot.symm, hhas, heq, fun h => absurd h hcall⟩⟩

/-- The report of a `POP` shows the word in its register. -/
theorem reportsWord_pop {event : TraceEvent} {word : Word}
    (hop : event.instruction.opcode = .POP) {reg : RegisterName}
    (hdst : event.instruction.dst = .register reg) (hreg : event.after.registers reg = word) :
    event.ReportsWord word := by
  have hdetail : event.stackDetail = event.popDetail := by rw [stackDetail, hop]
  rw [popDetail, hdst] at hdetail
  refine ⟨?_, ?_, ?_, fun h => ?_⟩
  · rw [hdetail, stackSlot, hop]
  · rw [hdetail]
  · rw [hdetail]
    exact hreg
  · rw [hop] at h
    rcases h with h | h <;> cases h

/-- The report of a `CALL` shows the return address exactly when it can be recovered. -/
theorem reportsWord_call {event : TraceEvent} {word : Word}
    (hop : event.instruction.opcode = .CALL) (h : event.Pushed word) :
    event.ReportsWord word ↔ event.Recoverable word := by
  have hdetail : event.stackDetail = event.callDetail := by rw [stackDetail, hop]
  have hrecoverable : event.Recoverable word
      ↔ event.before.memory.byteAt event.before.sp ≠ lowByte word ∧ word.toNat < 256 := by
    simp only [Recoverable, hop]
  have hfind := h.find
  rw [hrecoverable, ← ofNat_lowByte_eq_iff]
  -- A push that leaves the low byte as it was is no change, and nothing is reported; otherwise one
  -- byte is.
  by_cases hsame : event.before.memory.byteAt event.before.sp = lowByte word
  · rw [if_pos hsame] at hfind
    refine ⟨fun hreports => ?_, fun hboth => absurd hsame hboth.1⟩
    have := hreports.has_value
    simp only [hdetail, callDetail, hfind] at this
    cases this
  · rw [if_neg hsame] at hfind
    have hcall : event.callReturnDetail.return_address = event.stackDetail.return_address.toNat := by
      have hhas : event.stackDetail.has_return_address = true := by
        simp only [hdetail, callDetail, hfind]
      simp only [callReturnDetail, hop, withReturnAddress, hhas, if_true]
    have hvalue : event.stackDetail.value = BitVec.ofNat 64 (lowByte word).toNat := by
      simp only [hdetail, callDetail, hfind]
    rw [← hvalue]
    refine ⟨fun hreports => ⟨hsame, hreports.value⟩, fun hboth => ⟨?_, ?_, hboth.2, fun _ => ?_⟩⟩
    · simp only [hdetail, callDetail, hfind, stackSlot, hop]
    · simp only [hdetail, callDetail, hfind]
    · have hreturn : event.stackDetail.return_address = word := by
        rw [← hboth.2]
        simp only [hdetail, callDetail, hfind]
      exact ⟨by simp only [hdetail, callDetail, hfind], hreturn, hreturn ▸ hcall⟩

/-- The report of a `RET` shows the address in PC. -/
theorem reportsWord_ret {event : TraceEvent} {word : Word}
    (hop : event.instruction.opcode = .RET) (h : event.Popped word)
    (hpc : event.after.pc = word.toNat) : event.ReportsWord word := by
  have hread : event.before.memory.read event.after.sp = .ok word :=
    Memory.read_eq_ok.mpr ⟨h.sp.trans_le h.inside, h.read⟩
  have hdetail : event.stackDetail = event.retDetail := by rw [stackDetail, hop]
  simp only [retDetail, withStackWord, hread] at hdetail
  refine ⟨?_, ?_, ?_, fun _ => ⟨?_, ?_, ?_⟩⟩
  · rw [hdetail, stackSlot, hop]
  · rw [hdetail]
  · rw [hdetail]
  · rw [hdetail]
  · rw [hdetail]
    show Word.ofSize event.after.pc = word
    rw [hpc, Word.ofSize, BitVec.ofNat_toNat, BitVec.setWidth_eq]
  · simp only [callReturnDetail, hop]
    exact hpc

end TraceEvent

namespace CPU

/-- A stack instruction that a step executes without error moves one word, and the event reports
that word exactly where a single changed byte, or the operand read again, tells it. -/
theorem stack_detail_reports_word_iff [LongDouble] (cpu : CPU W) (event : TraceEvent)
    (hrun : ¬ cpu.Stopped) (htrace : cpu.step.trace = cpu.trace ++ [event])
    (hok : cpu.step.core.state.hasError = false)
    (hop : movesWord event.instruction.opcode = true) :
    (∃ word, event.Moves cpu.setup word) ∧
      ∀ word, event.Moves cpu.setup word → (event.ReportsWord word ↔ event.Recoverable word) := by
  have hint : event.instruction.opcode ≠ .INT := by
    intro hint
    rw [hint] at hop
    cases hop
  obtain ⟨e, i, r, after, hexecutes⟩ := executes_of_step hrun htrace hok hint
  refine ⟨hexecutes.moves hop, fun word hmoves => ?_⟩
  unfold TraceEvent.Moves at hmoves
  -- `POP` and `RET` report a register and PC; `PUSH` and `CALL` look for the word among the changed
  -- bytes.
  cases hcase : event.instruction.opcode with
  | PUSH =>
    rw [hcase] at hmoves
    obtain ⟨pushed, hpushed, hread⟩ := hexecutes.pushed hcase
    have hword : word = pushed := hmoves.word_eq.trans hpushed.word_eq.symm
    exact TraceEvent.reportsWord_push hcase hmoves (hword ▸ hread)
  | POP =>
    rw [hcase] at hmoves
    obtain ⟨-, reg, hdst, hreg⟩ := hmoves
    refine iff_of_true (TraceEvent.reportsWord_pop hcase hdst hreg) ?_
    simp only [TraceEvent.Recoverable, hcase]
  | CALL =>
    rw [hcase] at hmoves
    exact TraceEvent.reportsWord_call hcase hmoves.1
  | RET =>
    rw [hcase] at hmoves
    refine iff_of_true (TraceEvent.reportsWord_ret hcase hmoves.1 hmoves.2) ?_
    simp only [TraceEvent.Recoverable, hcase]
  | _ =>
    rw [hcase] at hop
    cases hop

/-- `MOV R0, value` and `PUSH R0`. -/
def pushing (value : Word) : CPU Unit :=
  (CPU.new ()).loadProgram
    [⟨.MOV, .register .R0, .immediate value⟩, ⟨.PUSH, .register .R0, .none⟩] []

/-- The event of a step that ends in a `PUSH` of `word`. -/
theorem exists_pushed_event [LongDouble] {cpu : CPU W} (hm : cpu.setup.Recorded) {dst : Operand}
    {word : Word}
    (hrun : cpu.core.state.errorMessage = []
      ∧ (cpu.core.state.halted || cpu.core.state.hasError) = false)
    (hlast : cpu.step.trace.getLast?.map TraceEvent.instruction = some ⟨.PUSH, dst, .none⟩)
    (hafter : cpu.step.core.state.hasError = false
      ∧ leWord 64 (cpu.step.core.state.memory.slice cpu.core.state.sp 8) = word) :
    ∃ event : TraceEvent, cpu.step.trace = cpu.trace ++ [event]
      ∧ event.instruction.opcode = .PUSH ∧ event.before = cpu.core.state ∧ event.Pushed word := by
  obtain ⟨hmessage, hrun⟩ := hrun
  rw [Bool.or_eq_false_iff, ← Bool.not_eq_true, ← Bool.not_eq_true] at hrun
  obtain ⟨event, htrace, hinstruction, hbefore, hstate⟩ :=
    exists_event_of_step hm hmessage (not_or.mpr hrun) hlast
  have hop : event.instruction.opcode = .PUSH := by rw [hinstruction]
  obtain ⟨_, _, _, _, hexecutes⟩ := executes_of_step (not_or.mpr hrun) htrace hafter.1
    (by rw [hop]; exact nofun)
  obtain ⟨pushed, hpushed, -⟩ := hexecutes.pushed hop
  have hword : pushed = word := by
    rw [hpushed.word_eq, hbefore, hstate]
    exact hafter.2
  exact ⟨event, htrace, hop, hbefore, hword ▸ hpushed⟩

/-- The CPU pushes 258, and the event does not report it. -/
theorem stack_detail_misreports_word :
    letI : LongDouble := LongDouble.x87
    let cpu := steps 1 (pushing 258)
    ∃ event : TraceEvent, cpu.step.trace = cpu.trace ++ [event] ∧
      cpu.step.core.state.hasError = false ∧ event.instruction.opcode = .PUSH ∧
      event.Moves cpu.setup 258 ∧ event.stackDetail.value = 2 ∧ ¬ event.ReportsWord 258 := by
  let _ : LongDouble := LongDouble.x87
  intro cpu
  obtain ⟨event, htrace, hop, hbefore, hpushed⟩ :=
    @exists_pushed_event _ LongDouble.x87 (steps 1 (pushing 258)) nofun
      (.register .R0) 258 (by decide +kernel) (by decide +kernel) (by decide +kernel)
  have hdiffers : event.before.memory.byteAt event.before.sp ≠ lowByte 258 := by
    rw [hbefore]
    decide +kernel
  have hvalue : event.stackDetail.value = 2 := (hpushed.reported hop hdiffers).2.2
  refine ⟨event, htrace, by decide +kernel, hop, ?_, hvalue, fun h => ?_⟩
  · simp only [TraceEvent.Moves, hop]
    exact hpushed
  · exact absurd (hvalue.symm.trans h.value) (by decide)

/-- A word below 256 that changes the low byte of its slot is reported. -/
theorem stack_detail_reports_word_iff_pushing :
    letI : LongDouble := LongDouble.x87
    ∃ event : TraceEvent, (steps 1 (pushing 5)).step.trace = (steps 1 (pushing 5)).trace ++ [event]
      ∧ event.ReportsWord 5 := by
  let _ : LongDouble := LongDouble.x87
  obtain ⟨event, htrace, hop, hbefore, hpushed⟩ :=
    @exists_pushed_event _ LongDouble.x87 (steps 1 (pushing 5)) nofun
      (.register .R0) 5 (by decide +kernel) (by decide +kernel) (by decide +kernel)
  have hmoves : event.Moves (steps 1 (pushing 5)).setup 5 := by
    simp only [TraceEvent.Moves, hop]
    exact hpushed
  have hrecoverable : event.Recoverable 5 := by
    simp only [TraceEvent.Recoverable, hop, hbefore]
    rw [if_neg (by decide +kernel)]
    decide
  have hrun : ¬ (steps 1 (pushing 5)).Stopped := by
    rintro (h | h) <;> cases h
  have hreports := (stack_detail_reports_word_iff (steps 1 (pushing 5)) event hrun htrace
    (by decide +kernel) (by rw [hop]; rfl)).2
  exact ⟨event, htrace, (hreports 5 hmoves).mpr hrecoverable⟩

end CPU

end ZeroCpu
