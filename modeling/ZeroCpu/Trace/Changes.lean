import ZeroCpu.Core.Closed
import ZeroCpu.Library.Replay

/-!
# The changes a trace event records

Reference: `include/zero_cpu/trace/TraceEvent.hpp`, `src/trace/TraceEvent.cpp`.

A `TraceEvent` lists the registers, the flags and the bytes of memory that differ between the states
around a step. What the lists do not show is `SameUnrecorded`: a step keeps it whatever it executes,
so that replaying the lists over the state before a step gives the state after it.
-/

namespace ZeroCpu

open Library

variable {W : Type}

/-! ## Change lists -/

/-- `RegisterChange`. -/
structure RegisterChange where
  name : Str
  before : Word
  after : Word
deriving DecidableEq

/-- `FlagChange`. -/
structure FlagChange where
  name : Str
  before : Bool
  after : Bool
deriving DecidableEq

/-- `MemoryChange`. -/
structure MemoryChange where
  address : ℕ
  before : Word
  after : Word
deriving DecidableEq

/-- `RegisterFile::registerNameToString`. -/
def registerNameToString : RegisterName → Str
  | .R0 => "R0"
  | .R1 => "R1"
  | .R2 => "R2"
  | .R3 => "R3"
  | .R4 => "R4"
  | .R5 => "R5"
  | .R6 => "R6"
  | .R7 => "R7"

/-- The names of the flags in the order in which changes are listed. -/
def flagNames : List (Str × ℕ) :=
  [("ZF", Flags.ZF), ("SF", Flags.SF), ("OF", Flags.OF), ("CF", Flags.CF)]

/-- An element of `Memory::snapshot`. -/
def Memory.snapshotAt (memory : Memory) (address : ℕ) : Word :=
  BitVec.ofNat 64 (memory.byteAt address).toNat

namespace TraceEvent

/-- The change of a register, when there is one. -/
def registerChange (event : TraceEvent) (reg : RegisterName) : Option RegisterChange :=
  let before_value := event.before.registers reg
  let after_value := event.after.registers reg
  if before_value ≠ after_value then some ⟨registerNameToString reg, before_value, after_value⟩
  else none

/-- `analyzeRegisterChanges`. -/
def changedRegisters (event : TraceEvent) : List RegisterChange :=
  RegisterName.all.filterMap event.registerChange

/-- The change of a flag, when there is one. -/
def flagChange (event : TraceEvent) (name : Str) (bit : ℕ) : Option FlagChange :=
  let before_value := event.before.flags.test bit
  let after_value := event.after.flags.test bit
  if before_value ≠ after_value then some ⟨name, before_value, after_value⟩ else none

/-- `analyzeFlagChanges`. -/
def changedFlags (event : TraceEvent) : List FlagChange :=
  flagNames.filterMap fun (name, bit) => event.flagChange name bit

/-- The change of a byte of memory, when there is one. -/
def memoryChange (event : TraceEvent) (address : ℕ) : Option MemoryChange :=
  let before_value := event.before.memory.snapshotAt address
  let after_value := event.after.memory.snapshotAt address
  if before_value ≠ after_value then some ⟨address, before_value, after_value⟩ else none

/-- `analyzeMemoryChanges`. -/
def changedMemory (event : TraceEvent) : List MemoryChange :=
  (List.range (min event.before.memory.size event.after.memory.size)).filterMap event.memoryChange

end TraceEvent

/-! ## Replay -/

/-- The registers, FLAGS and memory of a state. -/
structure MachineView where
  registers : RegisterFile
  flags : Flags
  memory : Memory

/-- The part of a state that change lists are about. -/
def CPUState.view (state : CPUState) : MachineView := ⟨state.registers, state.flags, state.memory⟩

/-- A register change, done to the registers. -/
def RegisterChange.apply (registers : RegisterFile) (change : RegisterChange) : RegisterFile :=
  fun reg => if registerNameToString reg = change.name then change.after else registers reg

/-- A flag change, done to the flags. -/
def FlagChange.apply (flags : Flags) (change : FlagChange) : Flags :=
  match flagNames.lookup change.name with
  | some bit => flags.set bit change.after
  | none => flags

/-- A memory change, done to the memory. -/
def MemoryChange.apply (memory : Memory) (change : MemoryChange) : Memory :=
  ⟨memory.bytes.set change.address (UInt8.ofNat change.after.toNat)⟩

/-- The view with an event's changes applied. -/
def MachineView.replay (view : MachineView) (event : TraceEvent) : MachineView where
  registers := event.changedRegisters.foldl RegisterChange.apply view.registers
  flags := event.changedFlags.foldl FlagChange.apply view.flags
  memory := event.changedMemory.foldl MemoryChange.apply view.memory

theorem registerNameToString_injective : Function.Injective registerNameToString := by
  intro reg other h
  cases reg <;> cases other <;> first | rfl | exact absurd h (by decide)

/-- The registers after a step are those before it with the listed changes. -/
theorem replay_registers (event : TraceEvent) :
    event.changedRegisters.foldl RegisterChange.apply event.before.registers
      = event.after.registers := by
  funext reg
  refine (get_foldl_eq_target (fun (registers : RegisterFile) reg => registers reg) (fun _ => True)
    event.after.registers id ?_ trivial ?_).2 reg
  · intro registers reg change _ _ hchange
    obtain ⟨-, hchange⟩ := Option.ite_none_right_eq_some.mp hchange
    obtain rfl := Option.some.inj hchange
    refine ⟨trivial, fun other => ?_⟩
    simp only [RegisterChange.apply, registerNameToString_injective.eq_iff, id_eq]
  · intro reg hnone
    have := hnone reg (RegisterName.mem_all reg) rfl
    simpa [TraceEvent.registerChange] using this

/-- A snapshot reads back as the byte it was taken of. -/
theorem toUInt8_snapshotAt (memory : Memory) (address : ℕ) :
    UInt8.ofNat (memory.snapshotAt address).toNat = memory.byteAt address := by
  have hlt := (memory.byteAt address).toNat_lt
  rw [Memory.snapshotAt, BitVec.toNat_ofNat, Nat.mod_eq_of_lt (by omega), UInt8.ofNat_toNat]

/-- Equal snapshots are of equal bytes. -/
theorem byteAt_of_snapshotAt {memory memory' : Memory} {address : ℕ}
    (h : memory.snapshotAt address = memory'.snapshotAt address) :
    memory.byteAt address = memory'.byteAt address := by
  rw [← toUInt8_snapshotAt, h, toUInt8_snapshotAt]

/-- The memory after a step that keeps the size is the one before it with the listed changes. -/
theorem replay_memory {event : TraceEvent}
    (hsize : event.after.memory.size = event.before.memory.size) :
    event.changedMemory.foldl MemoryChange.apply event.before.memory = event.after.memory := by
  have hstep : Overwrites Memory.byteAt (fun memory => memory.size = event.before.memory.size)
      event.after.memory.byteAt id MemoryChange.apply event.memoryChange
      (List.range (min event.before.memory.size event.after.memory.size)) := by
    intro memory address change _ hmemory hchange
    obtain ⟨hne, hchange⟩ := Option.ite_none_right_eq_some.mp hchange
    obtain rfl := Option.some.inj hchange
    -- A byte that differs is inside the memory: past its end every byte reads as zero.
    have hlt : address < memory.bytes.length := by
      by_contra hge
      refine hne ?_
      have hbefore : event.before.memory.bytes.length ≤ address := by
        have : memory.bytes.length = event.before.memory.bytes.length := hmemory
        omega
      have hafter : event.after.memory.bytes.length ≤ address := by
        have : event.after.memory.bytes.length = event.before.memory.bytes.length := hsize
        omega
      simp only [Memory.snapshotAt, Memory.byteAt, List.getD_eq_default _ _ hbefore,
        List.getD_eq_default _ _ hafter]
    refine ⟨(List.length_set).trans hmemory, fun other => ?_⟩
    simp only [MemoryChange.apply, toUInt8_snapshotAt, id_eq]
    by_cases hother : other = address
    · subst hother
      rw [if_pos rfl, Memory.byteAt, List.getD_eq_getElem _ _ (by rwa [List.length_set]),
        List.getElem_set_self]
    · simp only [if_neg hother, Memory.byteAt, List.getD_eq_getElem?_getD,
        List.getElem?_set_ne fun h : address = other => hother h.symm]
  have hreplay := get_foldl_eq_target _ _ _ _ hstep (s := event.before.memory) rfl fun address hnone => by
    by_cases hlt : address < event.before.memory.size
    · have hmem : address ∈ List.range (min event.before.memory.size event.after.memory.size) := by
        rwa [List.mem_range, hsize, Nat.min_self]
      refine byteAt_of_snapshotAt ?_
      simpa [TraceEvent.memoryChange] using hnone address hmem rfl
    · have hge : event.before.memory.size ≤ address := not_lt.mp hlt
      rw [Memory.byteAt, Memory.byteAt, List.getD_eq_default _ _ hge,
        List.getD_eq_default _ _ (hsize.le.trans hge)]
  exact Memory.ext_byteAt (hreplay.1.trans hsize.symm) fun address _ => hreplay.2 address

/-- The flags' positions are told apart by their names. -/
theorem lookup_flagNames {name : Str} {bit : ℕ} (h : (name, bit) ∈ flagNames) :
    flagNames.lookup name = some bit ∧ bit < 32 := by
  simp only [flagNames, List.mem_cons, Prod.mk.injEq, List.not_mem_nil, or_false] at h
  rcases h with ⟨rfl, rfl⟩ | ⟨rfl, rfl⟩ | ⟨rfl, rfl⟩ | ⟨rfl, rfl⟩ <;> decide

/-- Every named flag has a name in the change list. -/
theorem exists_name {bit : ℕ} (h : bit ∈ Flags.named) : ∃ name, (name, bit) ∈ flagNames := by
  simp only [Flags.named, List.mem_cons, List.not_mem_nil, or_false] at h
  rcases h with rfl | rfl | rfl | rfl
  · exact ⟨"CF", by decide⟩
  · exact ⟨"ZF", by decide⟩
  · exact ⟨"SF", by decide⟩
  · exact ⟨"OF", by decide⟩

/-- FLAGS after a step that keeps the reserved bits are those before it with the listed changes. -/
theorem replay_flags {event : TraceEvent}
    (hreserved : event.before.flags.SameReserved event.after.flags) :
    event.changedFlags.foldl FlagChange.apply event.before.flags = event.after.flags := by
  have hbits : ∀ k, (event.changedFlags.foldl FlagChange.apply event.before.flags).bits.getLsbD k
      = event.after.flags.bits.getLsbD k := by
    refine (get_foldl_eq_target (fun (flags : Flags) k => flags.bits.getLsbD k) (fun _ => True)
      event.after.flags.bits.getLsbD Prod.snd ?_ trivial ?_).2
    · rintro flags ⟨name, bit⟩ change hmem _ hchange
      obtain ⟨hlookup, hlt⟩ := lookup_flagNames hmem
      obtain ⟨-, hchange⟩ := Option.ite_none_right_eq_some.mp hchange
      obtain rfl := Option.some.inj hchange
      refine ⟨trivial, fun k => ?_⟩
      simp only [FlagChange.apply, hlookup]
      rw [Flags.getLsbD_set _ _ _ _ hlt, Flags.test_eq_getLsbD _ hlt]
    · intro k hnone
      by_cases hk : k ∈ Flags.named
      · obtain ⟨name, hname⟩ : ∃ name, (name, k) ∈ flagNames := exists_name hk
        obtain ⟨-, hlt⟩ := lookup_flagNames hname
        have hsame := hnone (name, k) hname rfl
        simpa [TraceEvent.flagChange, Flags.test_eq_getLsbD _ hlt] using hsame
      · exact (hreserved k hk).symm
  have heq := BitVec.eq_of_getLsbD_eq fun k _ => hbits k
  cases hflags : event.changedFlags.foldl FlagChange.apply event.before.flags
  rw [hflags] at heq
  exact congrArg Flags.mk heq

/-! ## What the lists do not show -/

/-- The states agree on what the change lists leave out, and neither carries a stale message. -/
structure CPUState.SameUnrecorded (state state' : CPUState) : Prop where
  reserved : state.flags.SameReserved state'.flags
  size : state'.memory.size = state.memory.size

/-- The changes of an event, done to the view before it, give the view after it. -/
theorem replay_eq_view {event : TraceEvent} (h : event.before.SameUnrecorded event.after) :
    event.before.view.replay event = event.after.view := by
  simp only [MachineView.replay, CPUState.view, replay_registers, replay_flags h.reserved,
    replay_memory h.size]

end ZeroCpu
