import Mathlib.Data.Int.Notation
import Mathlib.Order.Defs.LinearOrder
import Mathlib.Tactic.SplitIfs
import ZeroCpu.Library.Checks
import ZeroCpu.Library.Endian

/-!
# Byte memory and the memory map

Reference: `src/core/Memory.cpp`, `include/zero_cpu/core/MemoryMap.hpp`.

`std::string` is modelled as the list of its bytes (`Str`), `std::int64_t` and `std::uint64_t` as
64-bit words (`Word`), and `std::size_t` as a natural number wherever the code bounds it before
arithmetic on it. A `Memory` is its byte vector. A write is a function to the new memory: every
write of the source checks its range before it stores the first byte.
-/

namespace ZeroCpu

open Library

/-- A `std::string`: its bytes. -/
abbrev Str : Type := List UInt8

instance charToUInt8 : Coe Char UInt8 := ⟨Char.toUInt8⟩

/-- `std::string` orders its characters as unsigned bytes. -/
instance unsignedBytes : LinearOrder UInt8 where
  le_refl := UInt8.le_refl
  le_trans _ _ _ := UInt8.le_trans
  le_antisymm _ _ := UInt8.le_antisymm
  le_total := UInt8.le_total
  lt_iff_le_not_ge a b := by
    rw [UInt8.le_iff_toNat_le, UInt8.le_iff_toNat_le, UInt8.lt_iff_toNat_lt]
    omega
  toDecidableLE := inferInstance

/-- The bytes of a string literal. -/
def Str.ofString (s : String) : Str := s.toList.map Char.toUInt8

instance : Coe String Str := ⟨Str.ofString⟩

/-- A property of all characters of a string is decided on the string, not on all bytes. -/
instance {p : UInt8 → Prop} [DecidablePred p] (text : Str) : Decidable (∀ ch ∈ text, p ch) :=
  List.decidableBAll p text

/-- `std::to_string` of an unsigned value. -/
def toStr (n : ℕ) : Str := toString n

/-- `std::to_string` of a signed value. -/
def intToStr (n : ℤ) : Str := toString n

/-- A 64-bit machine word, signed or unsigned according to how it is read. -/
abbrev Word : Type := BitVec 64

/-- `static_cast<std::int64_t>` of a `std::size_t`. -/
def Word.ofSize (n : ℕ) : Word := BitVec.ofNat 64 n

/-- Byte order of a multi-byte access. -/
inductive Endianness where
  | little
  | big
deriving DecidableEq, Repr

/-- The word of the bytes `bs` in the given byte order. -/
def Endianness.word (w : ℕ) : Endianness → List UInt8 → BitVec w
  | .little => leWord w
  | .big => beWord w

/-- The `n` bytes of a word in the given byte order. -/
def Endianness.bytes {w : ℕ} (n : ℕ) : Endianness → BitVec w → List UInt8
  | .little => leBytes n
  | .big => beBytes n

@[simp] theorem Endianness.length_bytes {w : ℕ} (n : ℕ) (endian : Endianness) (v : BitVec w) :
    (endian.bytes n v).length = n := by
  cases endian <;> simp [Endianness.bytes]

/-- In either byte order a word is read back from its bytes. -/
theorem Endianness.word_bytes {n : ℕ} (endian : Endianness) (v : BitVec (8 * n)) :
    endian.word (8 * n) (endian.bytes n v) = v := by
  cases endian
  · exact leWord_leBytes v
  · exact beWord_beBytes v

/-- In either byte order the bytes of a word are the bytes it was read from. -/
theorem Endianness.bytes_word (endian : Endianness) (bs : List UInt8) :
    endian.bytes bs.length (endian.word (8 * bs.length) bs) = bs := by
  cases endian
  · exact leBytes_leWord bs
  · exact beBytes_beWord bs

/-! ## The memory map -/

namespace MemoryMap

def kUserDataBase : ℕ := 0x0000
def kUserDataSize : ℕ := 0x0200
def kUserDataEndExclusive : ℕ := kUserDataBase + kUserDataSize
def kBinaryCodeBase : ℕ := 0x0200
def kDefaultStackBase : ℕ := 0x0800
def kBioOSStackBase : ℕ := 0x0FA0
def kDefaultMemorySize : ℕ := 0x1000
def kUserStackBase : ℕ := kDefaultStackBase
def kUserStackEndExclusive : ℕ := kBioOSStackBase
def kKernelStackBase : ℕ := kBioOSStackBase
def kKernelStackEndExclusive : ℕ := kDefaultMemorySize
def kHardwareBase : ℕ := 0xF200
def kHardwareSize : ℕ := 0x0030
def kHardwareRegisterWidth : ℕ := 8

/-- Whether `[address, address + count)` lies in the User data window. -/
def isUserDataRange (address count : ℕ) : Bool :=
  if address < kUserDataBase then false
  else if address > kUserDataEndExclusive then false
  else decide (count ≤ kUserDataEndExclusive - address)

/-- The value is inside the Kernel stack or at its end. -/
def isKernelStackPointer (value : ℕ) : Bool :=
  decide (value ≥ kKernelStackBase ∧ value ≤ kKernelStackEndExclusive)

/-- A range is in the User data window when it ends by 512. -/
theorem isUserDataRange_iff (address count : ℕ) :
    isUserDataRange address count = true ↔ address + count ≤ 512 := by
  simp only [isUserDataRange, kUserDataBase, kUserDataEndExclusive, kUserDataSize]
  split_ifs <;> simp <;> omega

end MemoryMap

/-! ## The byte vector -/

/-- `Memory::bytes_`. -/
structure Memory where
  bytes : List UInt8
deriving DecidableEq

namespace Memory

/-- `Memory::Memory(size)`: `size` zero bytes. -/
def ofSize (size : ℕ) : Memory := ⟨List.replicate size 0⟩

/-- The number of bytes. -/
def size (m : Memory) : ℕ := m.bytes.length

/-- `Memory::reset`: every byte becomes zero, the size stays. -/
def reset (m : Memory) : Memory := ⟨m.bytes.map fun _ => 0⟩

/-- The byte at `address`, zero past the end. -/
def byteAt (m : Memory) (address : ℕ) : UInt8 := m.bytes.getD address 0

/-- `Memory::checkRange`. -/
def checkRange (m : Memory) (address count : ℕ) : Except Str Unit := do
  reject (address > m.size) "Memory address out of range"
  reject (count > m.size - address) "Memory access out of range"

/-- The `count` bytes from `address` on. -/
def slice (m : Memory) (address count : ℕ) : List UInt8 := (m.bytes.drop address).take count

/-- Overwrite the bytes from `address` on by `values` (`std::copy` into the vector). -/
def splice (m : Memory) (address : ℕ) (values : List UInt8) : Memory :=
  ⟨m.bytes.take address ++ values ++ m.bytes.drop (address + values.length)⟩

/-- `Memory::readU32`. -/
def readU32 (m : Memory) (address : ℕ) (endian : Endianness := .little) :
    Except Str (BitVec 32) := do
  m.checkRange address 4
  pure (endian.word 32 (m.slice address 4))

/-- `Memory::writeU32`. -/
def writeU32 (m : Memory) (address : ℕ) (value : BitVec 32) (endian : Endianness := .little) :
    Except Str Memory := do
  m.checkRange address 4
  pure (m.splice address (endian.bytes 4 value))

/-- `Memory::readU64`. -/
def readU64 (m : Memory) (address : ℕ) (endian : Endianness := .little) : Except Str Word := do
  m.checkRange address 8
  pure (endian.word 64 (m.slice address 8))

/-- `Memory::writeU64`. -/
def writeU64 (m : Memory) (address : ℕ) (value : Word) (endian : Endianness := .little) :
    Except Str Memory := do
  m.checkRange address 8
  pure (m.splice address (endian.bytes 8 value))

/-- `Memory::readBytes`. -/
def readBytes (m : Memory) (address count : ℕ) : Except Str (List UInt8) := do
  m.checkRange address count
  pure (m.slice address count)

/-- `Memory::writeBytes`. -/
def writeBytes (m : Memory) (address : ℕ) (values : List UInt8) : Except Str Memory := do
  m.checkRange address values.length
  pure (m.splice address values)

/-- `Memory::read`: the little-endian word at `address`. -/
def read (m : Memory) (address : ℕ) : Except Str Word := m.readU64 address

/-- `Memory::write`: store a word little-endian at `address`. -/
def write (m : Memory) (address : ℕ) (value : Word) : Except Str Memory := m.writeU64 address value

/-! ### Ranges -/

/-- A range is accepted exactly when it ends inside the memory. -/
theorem checkRange_eq_ok {m : Memory} {address count : ℕ} :
    m.checkRange address count = .ok () ↔ address + count ≤ m.size := by
  simp only [checkRange, bind_eq_ok, reject_eq_ok, exists_const]
  omega

/-- A range check passes or throws one of its two messages; it never depends on the bytes. -/
theorem checkRange_congr {m m' : Memory} (h : m.size = m'.size) (address count : ℕ) :
    m.checkRange address count = m'.checkRange address count := by
  unfold checkRange
  rw [h]

/-! ### Zeroed memory -/

theorem size_ofSize (n : ℕ) : (ofSize n).size = n := by
  simp [ofSize, size]

theorem byteAt_ofSize (n i : ℕ) : (ofSize n).byteAt i = 0 := by
  rw [byteAt, ofSize, List.getD_eq_getElem?_getD, List.getElem?_replicate]
  split <;> rfl

theorem size_reset (m : Memory) : m.reset.size = m.size := by
  simp [reset, size]

/-! ### Single bytes of a splice -/

/-- Bytes that fit leave the size alone. -/
theorem size_splice {m : Memory} {address : ℕ} {values : List UInt8}
    (h : address + values.length ≤ m.size) : (m.splice address values).size = m.size := by
  simp only [size, splice, List.length_append, List.length_take, List.length_drop] at h ⊢
  omega

/-- A byte after a splice is the new one inside the range and the old one outside. -/
theorem byteAt_splice {m : Memory} {address : ℕ} {values : List UInt8}
    (h : address + values.length ≤ m.size) (i : ℕ) :
    (m.splice address values).byteAt i
      = if address ≤ i ∧ i < address + values.length then values.getD (i - address) 0
        else m.byteAt i := by
  have hlen : (m.bytes.take address).length = address := by
    rw [List.length_take]
    exact Nat.min_eq_left (by simp only [size] at h; omega)
  simp only [byteAt, splice, List.getD_eq_getElem?_getD, List.append_assoc]
  rcases Nat.lt_or_ge i address with hi | hi
  · rw [if_neg (by omega), List.getElem?_append_left (by omega), List.getElem?_take_of_lt hi]
  · rw [List.getElem?_append_right (by omega), hlen]
    rcases Nat.lt_or_ge (i - address) values.length with hv | hv
    · rw [if_pos (by omega), List.getElem?_append_left hv]
    · rw [if_neg (by omega), List.getElem?_append_right hv, List.getElem?_drop]
      congr 2
      omega

/-- Bytes outside the written range are untouched. -/
theorem byteAt_splice_of_notMem {m : Memory} {address : ℕ} {values : List UInt8}
    (h : address + values.length ≤ m.size) {i : ℕ}
    (hi : i < address ∨ address + values.length ≤ i) :
    (m.splice address values).byteAt i = m.byteAt i := by
  rw [byteAt_splice h, if_neg (by omega)]

/-! ### Slices -/

/-- A slice inside the memory has its length. -/
theorem length_slice {m : Memory} {address count : ℕ} (h : address + count ≤ m.size) :
    (m.slice address count).length = count := by
  simp only [slice, size, List.length_take, List.length_drop] at h ⊢
  omega

/-- The bytes of a slice are those of the memory. -/
theorem getElem?_slice {m : Memory} {address count i : ℕ} (h : address + count ≤ m.size)
    (hi : i < count) : (m.slice address count)[i]? = some (m.byteAt (address + i)) := by
  have hlt : address + i < m.bytes.length := by simp only [size] at h; omega
  rw [slice, List.getElem?_take_of_lt hi, List.getElem?_drop, byteAt,
    List.getD_eq_getElem _ _ hlt, List.getElem?_eq_getElem hlt]

/-- Two memories agreeing byte by byte on a range have the same slice there. -/
theorem slice_congr {m m' : Memory} {address count : ℕ} (h : address + count ≤ m.size)
    (h' : address + count ≤ m'.size)
    (hb : ∀ i, address ≤ i → i < address + count → m.byteAt i = m'.byteAt i) :
    m.slice address count = m'.slice address count := by
  apply List.ext_getElem?
  intro i
  by_cases hi : i < count
  · rw [getElem?_slice h hi, getElem?_slice h' hi, hb _ (by omega) (by omega)]
  · rw [List.getElem?_eq_none (by rw [length_slice h]; omega),
      List.getElem?_eq_none (by rw [length_slice h']; omega)]

/-- Two memories of one size agreeing byte by byte are equal. -/
theorem ext_byteAt {m m' : Memory} (hsize : m.size = m'.size)
    (hb : ∀ i, i < m.size → m.byteAt i = m'.byteAt i) : m = m' := by
  have h : m.slice 0 m.size = m'.slice 0 m.size :=
    slice_congr (by omega) (by omega) (fun i _ hi => hb i (by omega))
  cases m
  cases m'
  simp only [slice, size, List.drop_zero] at h hsize ⊢
  rw [List.take_length, hsize, List.take_length] at h
  rw [h]

/-- The slice just spliced in. -/
theorem slice_splice_self {m : Memory} {address : ℕ} {values : List UInt8}
    (h : address + values.length ≤ m.size) :
    (m.splice address values).slice address values.length = values := by
  have hs := size_splice h
  apply List.ext_getElem?
  intro i
  by_cases hi : i < values.length
  · rw [getElem?_slice (by omega) hi, byteAt_splice h, if_pos (by omega), Nat.add_sub_cancel_left,
      List.getD_eq_getElem _ _ hi, List.getElem?_eq_getElem hi]
  · rw [List.getElem?_eq_none (by rw [length_slice (by omega)]; omega),
      List.getElem?_eq_none (by omega)]

/-- A slice disjoint from the written range is untouched. -/
theorem slice_splice_of_disjoint {m : Memory} {address address' count : ℕ} {values : List UInt8}
    (h : address + values.length ≤ m.size) (h' : address' + count ≤ m.size)
    (hd : address' + count ≤ address ∨ address + values.length ≤ address') :
    (m.splice address values).slice address' count = m.slice address' count := by
  refine slice_congr (by rw [size_splice h]; exact h') h' ?_
  intro i h1 h2
  exact byteAt_splice_of_notMem h (by omega)

/-! ### Word accesses -/

/-- A word is read exactly when it is inside the memory. -/
theorem read_eq_ok {m : Memory} {address : ℕ} {v : Word} :
    m.read address = .ok v ↔ address + 8 ≤ m.size ∧ v = leWord 64 (m.slice address 8) := by
  unfold read readU64
  rcases hc : m.checkRange address 8 with e | ⟨⟩
  · have : ¬ address + 8 ≤ m.size := fun h => by rw [checkRange_eq_ok.mpr h] at hc; cases hc
    simp [Bind.bind, Except.bind, this]
  · have := checkRange_eq_ok.mp hc
    simp [Bind.bind, Except.bind, this, Endianness.word, Pure.pure, Except.pure, eq_comm]

/-- A word is written exactly when it is inside the memory. -/
theorem write_eq_ok {m m' : Memory} {address : ℕ} {v : Word} :
    m.write address v = .ok m' ↔ address + 8 ≤ m.size ∧ m' = m.splice address (leBytes 8 v) := by
  unfold write writeU64
  rcases hc : m.checkRange address 8 with e | ⟨⟩
  · have : ¬ address + 8 ≤ m.size := fun h => by rw [checkRange_eq_ok.mpr h] at hc; cases hc
    simp [Bind.bind, Except.bind, this]
  · have := checkRange_eq_ok.mp hc
    simp [Bind.bind, Except.bind, this, Endianness.bytes, Pure.pure, Except.pure, eq_comm]

/-- Bytes are read exactly when they are inside the memory. -/
theorem readBytes_eq_ok {m : Memory} {address count : ℕ} {bs : List UInt8} :
    m.readBytes address count = .ok bs
      ↔ address + count ≤ m.size ∧ bs = m.slice address count := by
  unfold readBytes
  rcases hc : m.checkRange address count with e | ⟨⟩
  · have : ¬ address + count ≤ m.size := fun h => by rw [checkRange_eq_ok.mpr h] at hc; cases hc
    simp [Bind.bind, Except.bind, this]
  · have := checkRange_eq_ok.mp hc
    simp [Bind.bind, Except.bind, this, Pure.pure, Except.pure, eq_comm]

/-- Bytes are written exactly when they are inside the memory. -/
theorem writeBytes_eq_ok {m m' : Memory} {address : ℕ} {values : List UInt8} :
    m.writeBytes address values = .ok m'
      ↔ address + values.length ≤ m.size ∧ m' = m.splice address values := by
  unfold writeBytes
  rcases hc : m.checkRange address values.length with e | ⟨⟩
  · have : ¬ address + values.length ≤ m.size := fun h => by
      rw [checkRange_eq_ok.mpr h] at hc; cases hc
    simp [Bind.bind, Except.bind, this]
  · have := checkRange_eq_ok.mp hc
    simp [Bind.bind, Except.bind, this, Pure.pure, Except.pure, eq_comm]

end Memory

end ZeroCpu
