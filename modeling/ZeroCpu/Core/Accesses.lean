import ZeroCpu.Core.Reference

/-!
# Data and stack accesses

Reference: `docs/semantics.md`, sections 3 to 5.

Which words of memory an instruction of the reference reads and which it writes. The lists leave out
nothing: no other byte of memory changes, and an instruction does the same on any memory with the
same words to read.
-/

namespace ZeroCpu.Reference

open Library

variable {W : Type} {m : Setup W} {s after : Core W} {i : Instruction} {next : ℕ}
  {detected : Word → Word → Bool}

/-- The addresses of the words that an instruction reads. -/
def reads (state : CPUState) (i : Instruction) : List ℕ :=
  match i.opcode with
  | .MOV | .LOAD | .STORE | .ADD | .SUB | .MUL | .DIV | .AND | .OR | .XOR =>
      (i.src.asAddress state.registers).toList
  | .CMP | .TEST =>
      (i.dst.asAddress state.registers).toList ++ (i.src.asAddress state.registers).toList
  | .PUSH => (i.dst.asAddress state.registers).toList
  | .POP | .RET => [state.sp - 8]
  | _ => []

/-- The addresses of the words that an instruction writes. -/
def writes (state : CPUState) (i : Instruction) : List ℕ :=
  match i.opcode with
  | .STORE => (i.dst.asAddress state.registers).toList
  | .PUSH | .CALL => [state.sp]
  | _ => []

/-- Interrupt entry and return, which move a whole frame, are left out. -/
def Instruction.MovesNoFrame (i : Instruction) : Prop := i.opcode ≠ .INT ∧ i.opcode ≠ .IRET

/-! ## Writes -/

/-- The core with another memory. -/
def withMemory (memory : Memory) (s : Core W) : Core W :=
  { s with state := { s.state with memory := memory } }

/-- A push writes one word, at the stack pointer. -/
theorem push_memory {value : Word} (h : push s value = some after) :
    slotsInside (stackRange s) s.state.sp 1
      ∧ after.state.memory = s.state.memory.splice s.state.sp (leBytes 8 value) := by
  unfold push at h
  split_ifs at h with hinside
  obtain rfl := Option.some.inj h
  exact ⟨hinside, rfl⟩

/-- A pop leaves the memory alone. -/
theorem pop_memory {value : Word} (h : pop s = some (value, after)) :
    after.state.memory = s.state.memory := by
  unfold pop at h
  split_ifs at h
  obtain ⟨-, rfl⟩ := Prod.mk.inj (Option.some.inj h)
  rfl

/-- A jump leaves the memory alone. -/
theorem jump_memory {operand : Operand} (h : jump m operand s = some after) :
    after.state.memory = s.state.memory := by
  obtain ⟨target, -, h⟩ := Option.bind_eq_some_iff.mp h
  split_ifs at h
  obtain rfl := Option.some.inj h
  rfl

/-- A conditional jump leaves the memory alone. -/
theorem branch_memory {taken : Bool} (h : branch taken m next i s = some after) :
    after.state.memory = s.state.memory := by
  unfold branch at h
  split_ifs at h
  · exact jump_memory h
  · obtain rfl := Option.some.inj h
    rfl

/-- An arithmetic instruction leaves the memory alone. -/
theorem arithmetic_memory {op : Word → Word → Option Result}
    (h : arithmetic op m next i s = some after) : after.state.memory = s.state.memory := by
  obtain ⟨reg, -, h⟩ := Option.bind_eq_some_iff.mp h
  obtain ⟨⟨rhs, world⟩, -, h⟩ := Option.bind_eq_some_iff.mp h
  obtain ⟨r, -, h⟩ := Option.bind_eq_some_iff.mp h
  obtain rfl := Option.some.inj h
  rfl

/-- A comparison leaves the memory alone. -/
theorem comparison_memory {op : Word → Word → Result}
    (h : comparison op m next i s = some after) : after.state.memory = s.state.memory := by
  obtain ⟨⟨lhs, world⟩, -, h⟩ := Option.bind_eq_some_iff.mp h
  obtain ⟨⟨rhs, world'⟩, -, h⟩ := Option.bind_eq_some_iff.mp h
  obtain rfl := Option.some.inj h
  rfl

/-- `EI` and `DI` leave the memory alone. -/
theorem setEnabled_memory {enabled : Bool} (h : setEnabled enabled m next s = some after) :
    after.state.memory = s.state.memory := by
  obtain ⟨r, -, h⟩ := Option.bind_eq_some_iff.mp h
  obtain rfl := Option.some.inj h
  rfl

/-- Inside the stack a slot is inside memory. -/
theorem slot_le_size (hsize : 4096 ≤ s.state.memory.size)
    (h : slotsInside (stackRange s) s.state.sp 1) : s.state.sp + 8 ≤ s.state.memory.size := by
  have hrange : (stackRange s).2 ≤ s.state.memory.size := by
    unfold stackRange
    split_ifs <;> simp only <;> omega
  have hslot := h.2.2
  omega

/-- A push leaves the bytes outside its slot alone. -/
theorem push_frame {value : Word} (hsize : 4096 ≤ s.state.memory.size)
    (h : push s value = some after) {byte : ℕ}
    (hout : byte < s.state.sp ∨ s.state.sp + 8 ≤ byte) :
    after.state.memory.byteAt byte = s.state.memory.byteAt byte := by
  obtain ⟨hinside, hmemory⟩ := push_memory h
  have hfit := slot_le_size hsize hinside
  rw [hmemory, Memory.byteAt_splice_of_notMem (by rwa [length_leBytes])
    (by rwa [length_leBytes])]

/-- A data write leaves the bytes outside its word alone. -/
theorem dataWrite_frame {world world' : W} {address : ℕ} {value : Word} {memory : Memory}
    (h : dataWrite m s world address value = some (memory, world')) {byte : ℕ}
    (hout : byte < address ∨ address + 8 ≤ byte) :
    memory.byteAt byte = s.state.memory.byteAt byte := by
  rw [dataWrite] at h
  split at h
  · cases h
  · cases hdevice : deviceAt m address with
    | some mapping =>
      simp only [hdevice] at h
      split at h
      · obtain ⟨rfl, -⟩ := Prod.mk.inj (Option.some.inj h)
        rfl
      · cases h
    | none =>
      simp only [hdevice] at h
      split_ifs at h with hfit
      obtain ⟨rfl, -⟩ := Prod.mk.inj (Option.some.inj h)
      rw [Memory.byteAt_splice_of_notMem (by rwa [length_leBytes]) (by rwa [length_leBytes])]

/-- An instruction changes no byte outside the words it writes. -/
theorem effect_frame (hframe : i.MovesNoFrame) (hsize : 4096 ≤ s.state.memory.size)
    (h : effect detected m next i s = some after) {byte : ℕ}
    (hout : ∀ address ∈ writes s.state i, byte < address ∨ address + 8 ≤ byte) :
    after.state.memory.byteAt byte = s.state.memory.byteAt byte := by
  have hsame : ∀ {memory : Memory}, memory = s.state.memory →
      memory.byteAt byte = s.state.memory.byteAt byte := fun hmemory => by rw [hmemory]
  unfold effect at h
  unfold writes at hout
  -- Only `STORE`, `PUSH` and `CALL` write; the others keep the memory whole.
  cases hop : i.opcode with
  | STORE =>
    simp only [hop] at h hout
    obtain ⟨address, haddress, h⟩ := Option.bind_eq_some_iff.mp h
    obtain ⟨⟨value, world⟩, -, h⟩ := Option.bind_eq_some_iff.mp h
    obtain ⟨⟨memory, world'⟩, hwrite, h⟩ := Option.bind_eq_some_iff.mp h
    obtain rfl := Option.some.inj h
    exact dataWrite_frame hwrite (hout address (by rw [haddress]; exact List.mem_singleton_self _))
  | PUSH =>
    simp only [hop] at h hout
    obtain ⟨⟨value, world⟩, -, h⟩ := Option.bind_eq_some_iff.mp h
    obtain ⟨pushed, hpushed, h⟩ := Option.bind_eq_some_iff.mp h
    obtain rfl := Option.some.inj h
    have houtside := hout _ (List.mem_singleton_self _)
    exact push_frame (s := { s with world := world }) hsize hpushed houtside
  | CALL =>
    simp only [hop] at h hout
    obtain ⟨target, -, h⟩ := Option.bind_eq_some_iff.mp h
    obtain ⟨pushed, hpushed, h⟩ := Option.bind_eq_some_iff.mp h
    split_ifs at h
    obtain rfl := Option.some.inj h
    exact push_frame hsize hpushed (hout _ (List.mem_singleton_self _))
  | INT => exact absurd hop hframe.1
  | IRET => exact absurd hop hframe.2
  | Invalid =>
    simp only [hop] at h
    cases h
  | NOP | HALT =>
    simp only [hop] at h
    obtain rfl := Option.some.inj h
    rfl
  | EI | DI =>
    simp only [hop] at h
    exact hsame (setEnabled_memory h)
  | JMP =>
    simp only [hop] at h
    exact hsame (jump_memory h)
  | JE | JNE | JG | JL =>
    simp only [hop] at h
    exact hsame (branch_memory h)
  | ADD | SUB | MUL | DIV | AND | OR | XOR =>
    simp only [hop] at h
    exact hsame (arithmetic_memory h)
  | CMP | TEST =>
    simp only [hop] at h
    exact hsame (comparison_memory h)
  | NOT =>
    simp only [hop] at h
    obtain ⟨reg, -, h⟩ := Option.bind_eq_some_iff.mp h
    obtain rfl := Option.some.inj h
    rfl
  | MOV =>
    simp only [hop] at h
    obtain ⟨reg, -, h⟩ := Option.bind_eq_some_iff.mp h
    obtain ⟨⟨value, world⟩, -, h⟩ := Option.bind_eq_some_iff.mp h
    obtain rfl := Option.some.inj h
    rfl
  | LOAD =>
    simp only [hop] at h
    obtain ⟨reg, -, h⟩ := Option.bind_eq_some_iff.mp h
    obtain ⟨address, -, h⟩ := Option.bind_eq_some_iff.mp h
    obtain ⟨⟨value, world⟩, -, h⟩ := Option.bind_eq_some_iff.mp h
    obtain rfl := Option.some.inj h
    rfl
  | POP =>
    simp only [hop] at h
    obtain ⟨reg, -, h⟩ := Option.bind_eq_some_iff.mp h
    obtain ⟨⟨value, popped⟩, hpopped, h⟩ := Option.bind_eq_some_iff.mp h
    obtain rfl := Option.some.inj h
    have hmemory := pop_memory hpopped
    exact hsame hmemory
  | RET =>
    simp only [hop] at h
    obtain ⟨⟨address, popped⟩, hpopped, h⟩ := Option.bind_eq_some_iff.mp h
    split_ifs at h
    obtain rfl := Option.some.inj h
    have hmemory := pop_memory hpopped
    exact hsame hmemory

/-! ## Reads -/

/-- Two memories of one size have the same words at the addresses. -/
structure SameWords (memory memory' : Memory) (addresses : List ℕ) : Prop where
  size : memory'.size = memory.size
  words : ∀ address ∈ addresses, memory'.slice address 8 = memory.slice address 8

variable {memory : Memory}

/-- A data read does the same on a memory with the same word. -/
theorem dataRead_withMemory {world : W} {address : ℕ} {addresses : List ℕ}
    (h : SameWords s.state.memory memory addresses) (hmem : address ∈ addresses) :
    dataRead m (withMemory memory s) world address = dataRead m s world address := by
  have hsize : (withMemory memory s).state.memory.size = s.state.memory.size := h.size
  have hword : (withMemory memory s).state.memory.slice address 8 = s.state.memory.slice address 8 :=
    h.words address hmem
  rw [dataRead, dataRead, hsize, hword]
  rfl

/-- An operand has the same value on a memory with the same word. -/
theorem value_withMemory {world : W} {operand : Operand} {addresses : List ℕ}
    (h : SameWords s.state.memory memory addresses)
    (hmem : (operand.asAddress s.state.registers).toList ⊆ addresses) :
    value m (withMemory memory s) world operand = value m s world operand := by
  have hread : ∀ address, operand.asAddress s.state.registers = some address →
      dataRead m (withMemory memory s) world address = dataRead m s world address :=
    fun address haddress => dataRead_withMemory h
      (hmem (by rw [haddress]; exact List.mem_singleton_self _))
  cases operand with
  | memory address => exact hread address rfl
  | indirect reg =>
    show (Operand.asAddress s.state.registers (.indirect reg)).bind _
      = (Operand.asAddress s.state.registers (.indirect reg)).bind _
    cases haddress : Operand.asAddress s.state.registers (.indirect reg) with
    | none => rfl
    | some address => exact hread address haddress
  | none => rfl
  | register reg => rfl
  | immediate value => rfl
  | code address => rfl
  | malformed => rfl

/-- The bounds of the stack depend on the size of the memory only. -/
theorem stackRange_withMemory (hsize : memory.size = s.state.memory.size) :
    stackRange (withMemory memory s) = stackRange s := by
  have hsize' : (withMemory memory s).state.memory.size = s.state.memory.size := hsize
  rw [stackRange, stackRange, hsize']
  rfl

/-- A push does the same on a memory of the same size. -/
theorem push_withMemory {value : Word} (hsize : memory.size = s.state.memory.size)
    (h : push s value = some after) :
    push (withMemory memory s) value
      = some (withMemory (memory.splice s.state.sp (leBytes 8 value)) after) := by
  unfold push at h ⊢
  rw [stackRange_withMemory hsize]
  split_ifs at h with hinside
  obtain rfl := Option.some.inj h
  exact if_pos hinside

/-- A pop does the same on a memory with the same word on top. -/
theorem pop_withMemory {value : Word} {addresses : List ℕ}
    (hsame : SameWords s.state.memory memory addresses) (hmem : s.state.sp - 8 ∈ addresses)
    (h : pop s = some (value, after)) :
    pop (withMemory memory s) = some (value, withMemory memory after) := by
  have hword : (withMemory memory s).state.memory.slice (s.state.sp - 8) 8
      = s.state.memory.slice (s.state.sp - 8) 8 := hsame.words _ hmem
  unfold pop at h ⊢
  rw [stackRange_withMemory hsame.size]
  split_ifs at h with hinside
  obtain ⟨rfl, rfl⟩ := Prod.mk.inj (Option.some.inj h)
  refine (if_pos hinside).trans ?_
  rw [show (withMemory memory s).state.sp = s.state.sp from rfl, hword]
  rfl

/-- A data write does the same on a memory of the same size. -/
theorem dataWrite_withMemory {world world' : W} {address : ℕ} {value : Word} {written : Memory}
    (hsize : memory.size = s.state.memory.size)
    (h : dataWrite m s world address value = some (written, world')) :
    ∃ written', dataWrite m (withMemory memory s) world address value = some (written', world') := by
  have hsize' : (withMemory memory s).state.memory.size = s.state.memory.size := hsize
  rw [dataWrite] at h ⊢
  rw [hsize']
  split at h
  · cases h
  · next hmay =>
    have hmay' : ¬ ¬ mayAccess (withMemory memory s) address := hmay
    simp only [if_neg hmay']
    cases hdevice : deviceAt m address with
    | some mapping =>
      simp only [hdevice] at h ⊢
      split at h
      · obtain ⟨-, rfl⟩ := Prod.mk.inj (Option.some.inj h)
        exact ⟨_, rfl⟩
      · cases h
    | none =>
      simp only [hdevice] at h ⊢
      split_ifs at h ⊢
      obtain ⟨-, rfl⟩ := Prod.mk.inj (Option.some.inj h)
      exact ⟨_, rfl⟩

/-- A jump does the same on any memory. -/
theorem jump_withMemory {operand : Operand} (h : jump m operand s = some after) :
    jump m operand (withMemory memory s) = some (withMemory memory after) := by
  obtain ⟨target, htarget, h⟩ := Option.bind_eq_some_iff.mp h
  split_ifs at h with hmay
  obtain rfl := Option.some.inj h
  rw [jump, htarget]
  exact if_pos hmay

/-- A conditional jump does the same on any memory. -/
theorem branch_withMemory {taken : Bool} (h : branch taken m next i s = some after) :
    branch taken m next i (withMemory memory s) = some (withMemory memory after) := by
  unfold branch at h ⊢
  split_ifs at h ⊢
  · exact jump_withMemory h
  · obtain rfl := Option.some.inj h
    rfl

/-- An arithmetic instruction does the same on a memory with the same source. -/
theorem arithmetic_withMemory {op : Word → Word → Option Result} {addresses : List ℕ}
    (hsame : SameWords s.state.memory memory addresses)
    (hmem : (i.src.asAddress s.state.registers).toList ⊆ addresses)
    (h : arithmetic op m next i s = some after) :
    arithmetic op m next i (withMemory memory s) = some (withMemory memory after) := by
  obtain ⟨reg, hreg, h⟩ := Option.bind_eq_some_iff.mp h
  obtain ⟨⟨rhs, world⟩, hvalue, h⟩ := Option.bind_eq_some_iff.mp h
  obtain ⟨r, hr, h⟩ := Option.bind_eq_some_iff.mp h
  obtain rfl := Option.some.inj h
  refine Option.bind_eq_some_iff.mpr ⟨reg, hreg, ?_⟩
  refine Option.bind_eq_some_iff.mpr ⟨(rhs, world), (value_withMemory hsame hmem).trans hvalue, ?_⟩
  exact Option.bind_eq_some_iff.mpr ⟨r, hr, rfl⟩

/-- A comparison does the same on a memory with the same operands. -/
theorem comparison_withMemory {op : Word → Word → Result} {addresses : List ℕ}
    (hsame : SameWords s.state.memory memory addresses)
    (hdst : (i.dst.asAddress s.state.registers).toList ⊆ addresses)
    (hsrc : (i.src.asAddress s.state.registers).toList ⊆ addresses)
    (h : comparison op m next i s = some after) :
    comparison op m next i (withMemory memory s) = some (withMemory memory after) := by
  obtain ⟨⟨lhs, world⟩, hlhs, h⟩ := Option.bind_eq_some_iff.mp h
  obtain ⟨⟨rhs, world'⟩, hrhs, h⟩ := Option.bind_eq_some_iff.mp h
  obtain rfl := Option.some.inj h
  refine Option.bind_eq_some_iff.mpr ⟨(lhs, world), (value_withMemory hsame hdst).trans hlhs, ?_⟩
  exact Option.bind_eq_some_iff.mpr
    ⟨(rhs, world'), (value_withMemory hsame hsrc).trans hrhs, rfl⟩

/-- An instruction does the same on any memory that has the same words to read. -/
theorem effect_withMemory (hframe : i.MovesNoFrame)
    (hsame : SameWords s.state.memory memory (reads s.state i))
    (h : effect detected m next i s = some after) :
    ∃ memory', effect detected m next i (withMemory memory s) = some (withMemory memory' after) := by
  have hall : ∀ {addresses : List ℕ}, addresses ⊆ addresses := fun {_} => List.Subset.refl _
  unfold effect at h ⊢
  unfold reads at hsame
  -- One case per group of instructions: what is read agrees by `hsame`, what is written goes into
  -- the new memory.
  cases hop : i.opcode with
  | STORE =>
    simp only [hop] at h hsame ⊢
    obtain ⟨address, haddress, h⟩ := Option.bind_eq_some_iff.mp h
    obtain ⟨⟨value, world⟩, hvalue, h⟩ := Option.bind_eq_some_iff.mp h
    obtain ⟨⟨written, world'⟩, hwrite, h⟩ := Option.bind_eq_some_iff.mp h
    obtain rfl := Option.some.inj h
    obtain ⟨written', hwrite'⟩ := dataWrite_withMemory hsame.size hwrite
    refine ⟨written', Option.bind_eq_some_iff.mpr ⟨address, haddress, ?_⟩⟩
    refine Option.bind_eq_some_iff.mpr
      ⟨(value, world), (value_withMemory hsame hall).trans hvalue, ?_⟩
    exact Option.bind_eq_some_iff.mpr ⟨(written', world'), hwrite', rfl⟩
  | PUSH =>
    simp only [hop] at h hsame ⊢
    obtain ⟨⟨value, world⟩, hvalue, h⟩ := Option.bind_eq_some_iff.mp h
    obtain ⟨pushed, hpushed, h⟩ := Option.bind_eq_some_iff.mp h
    obtain rfl := Option.some.inj h
    have hpushed' := push_withMemory (s := { s with world := world }) hsame.size hpushed
    refine ⟨memory.splice s.state.sp (leBytes 8 value), Option.bind_eq_some_iff.mpr
      ⟨(value, world), (value_withMemory hsame hall).trans hvalue, ?_⟩⟩
    exact Option.bind_eq_some_iff.mpr ⟨_, hpushed', rfl⟩
  | CALL =>
    simp only [hop] at h hsame ⊢
    obtain ⟨target, htarget, h⟩ := Option.bind_eq_some_iff.mp h
    obtain ⟨pushed, hpushed, h⟩ := Option.bind_eq_some_iff.mp h
    split_ifs at h with hmay
    obtain rfl := Option.some.inj h
    refine ⟨memory.splice s.state.sp (leBytes 8 (BitVec.ofNat 64 next)),
      Option.bind_eq_some_iff.mpr ⟨target, htarget, ?_⟩⟩
    exact Option.bind_eq_some_iff.mpr ⟨_, push_withMemory hsame.size hpushed, if_pos hmay⟩
  -- `INT` and `IRET` move a whole frame and are excluded.
  | INT => exact absurd hop hframe.1
  | IRET => exact absurd hop hframe.2
  | Invalid =>
    simp only [hop] at h
    cases h
  | NOP | HALT =>
    simp only [hop] at h ⊢
    obtain rfl := Option.some.inj h
    exact ⟨memory, rfl⟩
  | EI | DI =>
    simp only [hop] at h ⊢
    obtain ⟨r, hr, h⟩ := Option.bind_eq_some_iff.mp h
    obtain rfl := Option.some.inj h
    exact ⟨memory, Option.bind_eq_some_iff.mpr ⟨r, hr, rfl⟩⟩
  | JMP =>
    simp only [hop] at h ⊢
    exact ⟨memory, jump_withMemory h⟩
  | JE | JNE | JG | JL =>
    simp only [hop] at h ⊢
    exact ⟨memory, branch_withMemory h⟩
  | ADD | SUB | MUL | DIV | AND | OR | XOR =>
    simp only [hop] at h hsame ⊢
    exact ⟨memory, arithmetic_withMemory hsame hall h⟩
  | CMP | TEST =>
    simp only [hop] at h hsame ⊢
    exact ⟨memory, comparison_withMemory hsame (List.subset_append_left _ _)
      (List.subset_append_right _ _) h⟩
  | NOT =>
    simp only [hop] at h ⊢
    obtain ⟨reg, hreg, h⟩ := Option.bind_eq_some_iff.mp h
    obtain rfl := Option.some.inj h
    exact ⟨memory, Option.bind_eq_some_iff.mpr ⟨reg, hreg, rfl⟩⟩
  | MOV =>
    simp only [hop] at h hsame ⊢
    obtain ⟨reg, hreg, h⟩ := Option.bind_eq_some_iff.mp h
    obtain ⟨⟨value, world⟩, hvalue, h⟩ := Option.bind_eq_some_iff.mp h
    obtain rfl := Option.some.inj h
    refine ⟨memory, Option.bind_eq_some_iff.mpr ⟨reg, hreg, ?_⟩⟩
    exact Option.bind_eq_some_iff.mpr
      ⟨(value, world), (value_withMemory hsame hall).trans hvalue, rfl⟩
  | LOAD =>
    simp only [hop] at h hsame ⊢
    obtain ⟨reg, hreg, h⟩ := Option.bind_eq_some_iff.mp h
    obtain ⟨address, haddress, h⟩ := Option.bind_eq_some_iff.mp h
    obtain ⟨⟨value, world⟩, hvalue, h⟩ := Option.bind_eq_some_iff.mp h
    obtain rfl := Option.some.inj h
    rw [haddress] at hsame
    have hread : dataRead m (withMemory memory s) s.world address = dataRead m s s.world address :=
      dataRead_withMemory hsame (List.mem_singleton_self address)
    refine ⟨memory, Option.bind_eq_some_iff.mpr ⟨reg, hreg, ?_⟩⟩
    refine Option.bind_eq_some_iff.mpr ⟨address, haddress, ?_⟩
    exact Option.bind_eq_some_iff.mpr ⟨(value, world), hread.trans hvalue, rfl⟩
  | POP =>
    simp only [hop] at h hsame ⊢
    obtain ⟨reg, hreg, h⟩ := Option.bind_eq_some_iff.mp h
    obtain ⟨⟨value, popped⟩, hpopped, h⟩ := Option.bind_eq_some_iff.mp h
    obtain rfl := Option.some.inj h
    have hpopped' := pop_withMemory hsame (List.mem_singleton_self _) hpopped
    refine ⟨memory, Option.bind_eq_some_iff.mpr ⟨reg, hreg, ?_⟩⟩
    exact Option.bind_eq_some_iff.mpr ⟨_, hpopped', rfl⟩
  | RET =>
    simp only [hop] at h hsame ⊢
    obtain ⟨⟨address, popped⟩, hpopped, h⟩ := Option.bind_eq_some_iff.mp h
    split_ifs at h with hmay
    obtain rfl := Option.some.inj h
    have hpopped' := pop_withMemory hsame (List.mem_singleton_self _) hpopped
    exact ⟨memory, Option.bind_eq_some_iff.mpr ⟨_, hpopped', if_pos hmay⟩⟩

end ZeroCpu.Reference
