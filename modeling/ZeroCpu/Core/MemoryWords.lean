import Mathlib.Algebra.Group.Nat.Defs
import ZeroCpu.Core.Memory
import ZeroCpu.Library.Exec

/-!
# Memory accesses as the source runs them

Reference: `src/core/Memory.cpp`.

Here an address is a `std::size_t`, a store is an assignment to one element of `bytes_` after the
other, and a word is shifted together or apart in a loop. `readWord_eq` and `writeWord_eq` say that
this computes the accesses of `Memory`, which the rest of the development uses.
-/

namespace ZeroCpu

open Library

/-- The other byte order. -/
def Endianness.other : Endianness → Endianness
  | .little => .big
  | .big => .little

namespace Memory

/-- `bytes_[address]`. -/
def fetch (m : Memory) (address : Word) : UInt8 := m.byteAt address.toNat

/-- `bytes_[address] = value`. -/
def store (m : Memory) (address : Word) (value : UInt8) : Memory :=
  ⟨m.bytes.set address.toNat value⟩

namespace Bytewise

/-- `Memory::checkRange`; the difference is one of two `std::size_t`. -/
def checkRange (address count : Word) : Exec Str Memory Unit := do
  let m ← Exec.get
  Exec.lift (reject (address > Word.ofSize m.size) "Memory address out of range")
  Exec.lift (reject (count > Word.ofSize m.size - address) "Memory access out of range")

/-- `Memory::readU8`. -/
def readU8 (address : Word) : Exec Str Memory UInt8 := do
  checkRange address 1
  Exec.gets fun m => m.fetch address

/-- `Memory::writeU8`. -/
def writeU8 (address : Word) (value : UInt8) : Exec Str Memory Unit := do
  checkRange address 1
  Exec.modify fun m => m.store address value

/-- The loops of `readU32` and `readU64`. -/
def readWord (n : ℕ) (address : Word) (endian : Endianness) :
    Exec Str Memory (BitVec (8 * n)) := do
  checkRange address (Word.ofSize n)
  let m ← Exec.get
  match endian with
  | .little =>
      pure ((List.range n).foldl (fun value i =>
        value ||| (m.fetch (address + Word.ofSize i)).toBitVec.setWidth (8 * n) <<< (8 * i)) 0)
  | .big =>
      pure ((List.range n).foldl (fun value i =>
        (value <<< 8) ||| (m.fetch (address + Word.ofSize i)).toBitVec.setWidth (8 * n)) 0)

/-- The loops of `writeU32` and `writeU64`. -/
def writeWord (n : ℕ) (address : Word) (value : BitVec (8 * n)) (endian : Endianness) :
    Exec Str Memory Unit := do
  checkRange address (Word.ofSize n)
  match endian with
  | .little =>
      Exec.modify fun m => (List.range n).foldl (fun m i =>
        m.store (address + Word.ofSize i) (.ofBitVec ((value >>> (8 * i)).setWidth 8))) m
  | .big =>
      Exec.modify fun m => (List.range n).foldl (fun m i =>
        m.store (address + Word.ofSize i) (.ofBitVec ((value >>> (8 * (n - 1 - i))).setWidth 8))) m

/-- `Memory::readU32`. -/
def readU32 (address : Word) (endian : Endianness) : Exec Str Memory (BitVec 32) :=
  readWord 4 address endian

/-- `Memory::writeU32`. -/
def writeU32 (address : Word) (value : BitVec 32) (endian : Endianness) :
    Exec Str Memory Unit :=
  writeWord 4 address value endian

/-- `Memory::readU64`. -/
def readU64 (address : Word) (endian : Endianness) : Exec Str Memory (BitVec 64) :=
  readWord 8 address endian

/-- `Memory::writeU64`. -/
def writeU64 (address : Word) (value : BitVec 64) (endian : Endianness) :
    Exec Str Memory Unit :=
  writeWord 8 address value endian

/-- `Memory::readI64`; the cast to `std::int64_t` keeps the bits. -/
def readI64 (address : Word) (endian : Endianness) : Exec Str Memory Word :=
  readU64 address endian

/-- `Memory::writeI64`. -/
def writeI64 (address : Word) (value : Word) (endian : Endianness) :
    Exec Str Memory Unit :=
  writeU64 address value endian

/-- `Memory::readBytes`: the elements from `begin() + address` to `begin() + (address + count)`. -/
def readBytes (address count : Word) : Exec Str Memory (List UInt8) := do
  checkRange address count
  Exec.gets fun m => (m.bytes.take (address + count).toNat).drop address.toNat

/-- `Memory::writeBytes`; `std::copy` assigns the elements in order. -/
def writeBytes (address : Word) (values : List UInt8) : Exec Str Memory Unit := do
  checkRange address (Word.ofSize values.length)
  Exec.modify fun m => (List.range values.length).foldl (fun m i =>
    m.store (address + Word.ofSize i) (values.getD i 0)) m

end Bytewise

/-! ## Ranges of `std::size_t` -/

section

variable {m : Memory} {address count : Word}

theorem toNat_ofSize {n : ℕ} (h : n < 2 ^ 64) : (Word.ofSize n).toNat = n := by
  rw [Word.ofSize, BitVec.toNat_ofNat, Nat.mod_eq_of_lt h]

/-- An address inside a checked range does not wrap around. -/
theorem toNat_add_ofSize {i : ℕ} (h : address.toNat + i < 2 ^ 64) :
    (address + Word.ofSize i).toNat = address.toNat + i := by
  rw [BitVec.toNat_add, toNat_ofSize (by omega), Nat.mod_eq_of_lt h]

/-- The check of the source neither overflows nor underflows. -/
theorem Bytewise.checkRange_eq (hm : m.size < 2 ^ 64) :
    Bytewise.checkRange address count m = (m.checkRange address.toNat count.toNat, m) := by
  have hsize : (Word.ofSize m.size).toNat = m.size := toNat_ofSize hm
  simp only [Bytewise.checkRange, Memory.checkRange, Exec.bind_apply, Exec.get_apply,
    Exec.lift_apply]
  by_cases h : address.toNat > m.size
  · have h' : address > Word.ofSize m.size := by
      rw [gt_iff_lt, BitVec.lt_def, hsize]
      exact h
    rw [reject_of_pos h, reject_of_pos h']
    rfl
  · have h' : ¬ address > Word.ofSize m.size := by
      rw [gt_iff_lt, BitVec.lt_def, hsize]
      exact h
    have hsub : (Word.ofSize m.size - address).toNat = m.size - address.toNat := by
      rw [BitVec.toNat_sub_of_le (by rw [BitVec.le_def, hsize]; omega), hsize]
    have hiff : count > Word.ofSize m.size - address ↔ count.toNat > m.size - address.toNat := by
      rw [gt_iff_lt, BitVec.lt_def, hsub]
    rw [reject_of_not h, reject_of_not h']
    show (reject (count > Word.ofSize m.size - address) _, m) = (reject (count.toNat > _) _, m)
    congr 1
    unfold reject
    simp only [hiff]

/-! ## The loops -/

/-- An assignment to one element is a splice of one byte. -/
theorem store_eq_splice (value : UInt8) (h : address.toNat < m.size) :
    m.store address value = m.splice address.toNat [value] := by
  show (⟨m.bytes.set address.toNat value⟩ : Memory) = _
  rw [List.set_eq_take_append_cons_drop, if_pos (show address.toNat < m.bytes.length from h)]
  simp [splice]

/-- Splicing on where the last splice ended. -/
theorem splice_append {start : ℕ} {front back : List UInt8}
    (h : start + (front ++ back).length ≤ m.size) :
    (m.splice start front).splice (start + front.length) back = m.splice start (front ++ back) := by
  rw [List.length_append] at h
  have hfront : start + front.length ≤ m.size := by omega
  have hsize := size_splice hfront
  have hback : start + front.length + back.length ≤ (m.splice start front).size := by omega
  have hboth : start + (front ++ back).length ≤ m.size := by rw [List.length_append]; omega
  apply ext_byteAt
  · rw [size_splice hback, hsize, size_splice hboth]
  · intro i _
    rw [byteAt_splice hback, byteAt_splice hfront, byteAt_splice hboth, List.length_append]
    by_cases hin : start ≤ i ∧ i < start + front.length
    · rw [if_neg (by omega), if_pos hin, if_pos (by omega), List.getD_append _ _ _ _ (by omega)]
    · by_cases hlast : start + front.length ≤ i ∧ i < start + front.length + back.length
      · rw [if_pos hlast, if_pos (by omega), List.getD_append_right _ _ _ _ (by omega)]
        congr 1
        omega
      · rw [if_neg hlast, if_neg hin, if_neg (by omega)]

/-- Storing bytes at consecutive addresses, in order, is one splice. -/
theorem foldl_store {n : ℕ} (f : ℕ → UInt8) (h : address.toNat + n ≤ m.size)
    (hm : m.size < 2 ^ 64) :
    (List.range n).foldl (fun m i => m.store (address + Word.ofSize i) (f i)) m
      = m.splice address.toNat ((List.range n).map f) := by
  induction n with
  | zero => simp [splice]
  | succ n ih =>
    have hlen : ((List.range n).map f).length = n := by simp
    have hfront : address.toNat + ((List.range n).map f).length ≤ m.size := by omega
    have hnext : (address + Word.ofSize n).toNat = address.toNat + ((List.range n).map f).length := by
      rw [toNat_add_ofSize (by omega), hlen]
    rw [List.range_succ, List.foldl_append, ih (by omega), List.foldl_cons, List.foldl_nil,
      store_eq_splice _ (by rw [size_splice hfront]; omega), hnext,
      splice_append (by simp; omega), List.map_append]
    rfl

/-- The bytes fetched from consecutive addresses are a slice. -/
theorem map_fetch {n : ℕ} (h : address.toNat + n ≤ m.size) (hm : m.size < 2 ^ 64) :
    (List.range n).map (fun i => m.fetch (address + Word.ofSize i)) = m.slice address.toNat n := by
  apply List.ext_getElem?
  intro i
  by_cases hi : i < n
  · rw [getElem?_slice h hi, List.getElem?_map, List.getElem?_range hi, Option.map_some, fetch,
      toNat_add_ofSize (by omega)]
  · rw [List.getElem?_eq_none (by simpa using hi),
      List.getElem?_eq_none (by rw [length_slice h]; omega)]

/-- Or-ing each byte in at its own place, the lowest first. -/
theorem foldl_little (w : ℕ) (f : ℕ → UInt8) (n : ℕ) :
    (List.range n).foldl (fun value i => value ||| (f i).toBitVec.setWidth w <<< (8 * i)) 0#w
      = leWord w ((List.range n).map f) := by
  induction n with
  | zero => rfl
  | succ n ih =>
    rw [List.range_succ, List.foldl_append, ih, List.map_append, List.map_singleton, leWord_append,
      List.length_map, List.length_range]
    rfl

/-- Shifting the word up and or-ing the next byte in at the bottom. -/
theorem foldl_big (w : ℕ) (f : ℕ → UInt8) (n : ℕ) :
    (List.range n).foldl (fun (value : BitVec w) i => (value <<< 8) ||| (f i).toBitVec.setWidth w) 0#w
      = beWord w ((List.range n).map f) := by
  rw [beWord, List.foldl_map]

/-- A load through the loop is the load of the slice. -/
theorem Bytewise.readWord_eq {n : ℕ} (hm : m.size < 2 ^ 64) (hn : n < 2 ^ 64)
    (endian : Endianness) :
    Bytewise.readWord n address endian m
      = ((do m.checkRange address.toNat n; pure (endian.word (8 * n) (m.slice address.toNat n))), m) := by
  rw [Bytewise.readWord, Exec.bind_apply, Bytewise.checkRange_eq hm, toNat_ofSize hn]
  rcases hc : m.checkRange address.toNat n with e | ⟨⟩
  · rfl
  · have hin : address.toNat + n ≤ m.size := checkRange_eq_ok.mp hc
    rw [← map_fetch hin hm]
    cases endian with
    | little => exact congrArg (fun v => (Except.ok v, m)) (foldl_little _ _ n)
    | big => exact congrArg (fun v => (Except.ok v, m)) (foldl_big _ _ n)

/-- A store through the loop is the splice of the word's bytes, or leaves the memory as it is. -/
theorem Bytewise.writeWord_eq {n : ℕ} (hm : m.size < 2 ^ 64) (hn : n < 2 ^ 64)
    (value : BitVec (8 * n)) (endian : Endianness) :
    Bytewise.writeWord n address value endian m
      = Exec.assign (fun m => do
          m.checkRange address.toNat n
          pure ((), m.splice address.toNat (endian.bytes n value))) m := by
  unfold Bytewise.writeWord Exec.assign
  beta_reduce
  rw [Exec.bind_apply, Bytewise.checkRange_eq hm, toNat_ofSize hn]
  rcases hc : m.checkRange address.toNat n with e | ⟨⟩
  · rfl
  · have hin : address.toNat + n ≤ m.size := checkRange_eq_ok.mp hc
    cases endian with
    | little => exact congrArg (fun m => (Except.ok (), m)) (foldl_store _ hin hm)
    | big => exact congrArg (fun m => (Except.ok (), m)) (foldl_store _ hin hm)

/-- Reading bytes one by one is reading the slice. -/
theorem Bytewise.readBytes_eq {count : Word} (hm : m.size < 2 ^ 64) :
    Bytewise.readBytes address count m = (m.readBytes address.toNat count.toNat, m) := by
  rw [Bytewise.readBytes, Exec.bind_apply, Bytewise.checkRange_eq hm, Memory.readBytes]
  rcases hc : m.checkRange address.toNat count.toNat with e | ⟨⟩
  · rfl
  · have hin : address.toNat + count.toNat ≤ m.size := checkRange_eq_ok.mp hc
    have hend : (address + count).toNat = address.toNat + count.toNat := by
      rw [BitVec.toNat_add, Nat.mod_eq_of_lt (by omega)]
    show (Except.ok ((m.bytes.take (address + count).toNat).drop address.toNat), m)
      = (Except.ok (m.slice address.toNat count.toNat), m)
    rw [hend, List.drop_take, Nat.add_sub_cancel_left, slice]

/-- Writing bytes one by one, after the check, is splicing them in. -/
theorem Bytewise.writeBytes_eq {values : List UInt8} (hm : m.size < 2 ^ 64)
    (hvalues : values.length < 2 ^ 64) :
    Bytewise.writeBytes address values m
      = Exec.assign (fun m => do pure ((), ← m.writeBytes address.toNat values)) m := by
  unfold Bytewise.writeBytes Exec.assign Memory.writeBytes
  beta_reduce
  rw [Exec.bind_apply, Bytewise.checkRange_eq hm, toNat_ofSize hvalues]
  rcases hc : m.checkRange address.toNat values.length with e | ⟨⟩
  · rfl
  · have hin : address.toNat + values.length ≤ m.size := checkRange_eq_ok.mp hc
    have hvalues : (List.range values.length).map (fun i => values.getD i 0) = values := by
      apply List.ext_getElem (by simp)
      intro i h1 h2
      simp [List.getElem?_eq_getElem h2]
    have hloop := foldl_store (fun i => values.getD i 0) hin hm
    rw [hvalues] at hloop
    exact congrArg (fun m => (Except.ok (), m)) hloop

/-! ## What a word access does -/

/-- Byte `i` of a word, counted from the least significant one. -/
def byteOf {w : ℕ} (value : BitVec w) (i : ℕ) : UInt8 := .ofBitVec ((value >>> (8 * i)).setWidth 8)

/-- The byte that a word of `n` bytes has at offset `i` in the given byte order. -/
def orderedByte {w : ℕ} (n : ℕ) (value : BitVec w) (i : ℕ) : Endianness → UInt8
  | .little => byteOf value i
  | .big => byteOf value (n - 1 - i)

/-- Two words of `n` bytes with the same bytes in opposite orders. -/
def ByteReversed {w : ℕ} (n : ℕ) (swapped value : BitVec w) : Prop :=
  ∀ i < n, byteOf swapped i = byteOf value (n - 1 - i)

/-- Every read of `m'` within `region` has the outcome that it has on `m`. -/
structure ReadsAlike (m m' : Memory) (region : ℕ → Prop) : Prop where
  readU8 : ∀ address : Word, region address.toNat →
    (Bytewise.readU8 address m').1 = (Bytewise.readU8 address m).1
  readU32 : ∀ (address : Word) (endian : Endianness), (∀ i < 4, region (address.toNat + i)) →
    (Bytewise.readU32 address endian m').1 = (Bytewise.readU32 address endian m).1
  readU64 : ∀ (address : Word) (endian : Endianness), (∀ i < 8, region (address.toNat + i)) →
    (Bytewise.readU64 address endian m').1 = (Bytewise.readU64 address endian m).1
  readBytes : ∀ address count : Word, (∀ i < count.toNat, region (address.toNat + i)) →
    (Bytewise.readBytes address count m').1 = (Bytewise.readBytes address count m).1

variable {n : ℕ} {load : Word → Endianness → Exec Str Memory (BitVec (8 * n))}
  {store : Word → BitVec (8 * n) → Endianness → Exec Str Memory Unit}

/-- The memory `m'` that a store at `address` makes of `m`, as the loads see it. -/
structure Stored (load : Word → Endianness → Exec Str Memory (BitVec (8 * n))) (address : Word)
    (value : BitVec (8 * n)) (endian : Endianness) (m m' : Memory) : Prop where
  size : m'.size = m.size
  same_order : load address endian m' = (.ok value, m')
  other_order : ∃ swapped, load address endian.other m' = (.ok swapped, m')
    ∧ ByteReversed n swapped value
  bytes : ∀ i < n, Bytewise.readU8 (address + Word.ofSize i) m'
    = (.ok (orderedByte n value i endian), m')
  elsewhere : ReadsAlike m m' fun i => i < address.toNat ∨ address.toNat + n ≤ i

/-- What loading and storing words of `n` bytes mean on a memory. -/
structure WordAccess (n : ℕ) (load : Word → Endianness → Exec Str Memory (BitVec (8 * n)))
    (store : Word → BitVec (8 * n) → Endianness → Exec Str Memory Unit) (m : Memory) : Prop where
  load_ok_iff : ∀ address endian,
    (∃ value, (load address endian m).1 = .ok value) ↔ address.toNat + n ≤ m.size
  load_keeps : ∀ address endian, (load address endian m).2 = m
  store_ok_iff : ∀ address value endian,
    (store address value endian m).1 = .ok () ↔ address.toNat + n ≤ m.size
  stored : ∀ address value endian m', store address value endian m = (.ok (), m') →
    Stored load address value endian m m'
  rejected : ∀ address value endian e m', store address value endian m = (.error e, m') → m' = m
  load_bytes : ∀ address endian, (load address endian m).1
    = endian.word (8 * n) <$> (Bytewise.readBytes address (Word.ofSize n) m).1
  store_bytes : ∀ address value endian, store address value endian m
    = Bytewise.writeBytes address (endian.bytes n value) m

/-- Reading a byte is reading it from the memory. -/
theorem Bytewise.readU8_eq (hm : m.size < 2 ^ 64) (address : Word) :
    Bytewise.readU8 address m
      = ((do m.checkRange address.toNat 1; pure (m.byteAt address.toNat)), m) := by
  rw [Bytewise.readU8, Exec.bind_apply, Bytewise.checkRange_eq hm,
    show (1 : Word).toNat = 1 from rfl]
  rcases m.checkRange address.toNat 1 with e | ⟨⟩ <;> rfl

/-- A memory with the same bytes in a range, in or out of bounds, has the same accesses there. -/
theorem readBytes_congr {m' : Memory} {start count : ℕ} (hsize : m'.size = m.size)
    (hbytes : ∀ i < count, m'.byteAt (start + i) = m.byteAt (start + i)) :
    m'.readBytes start count = m.readBytes start count := by
  unfold Memory.readBytes
  rw [checkRange_congr hsize]
  rcases hc : m.checkRange start count with e | ⟨⟩
  · rfl
  · have hin := checkRange_eq_ok.mp hc
    have hslice : m'.slice start count = m.slice start count := by
      refine slice_congr (hsize ▸ hin) hin fun i hlow hhigh => ?_
      have := hbytes (i - start) (by omega)
      rwa [Nat.add_sub_cancel' hlow] at this
    rw [hslice]

/-- Reading a word byte by byte is reading its bytes in order. -/
theorem Bytewise.readWord_bytes (hm : m.size < 2 ^ 64) (hn : n < 2 ^ 64) (address : Word)
    (endian : Endianness) : (Bytewise.readWord n address endian m).1
      = endian.word (8 * n) <$> m.readBytes address.toNat n := by
  rw [Bytewise.readWord_eq hm hn, Memory.readBytes]
  rcases m.checkRange address.toNat n with e | ⟨⟩ <;> rfl

/-- Memories of one size with the same bytes in a region have the same reads there. -/
theorem readsAlike_of_byteAt {m' : Memory} {region : ℕ → Prop} (hm : m.size < 2 ^ 64)
    (hsize : m'.size = m.size) (hbytes : ∀ i, region i → m'.byteAt i = m.byteAt i) :
    ReadsAlike m m' region := by
  have hm' : m'.size < 2 ^ 64 := hsize ▸ hm
  have hword : ∀ (k : ℕ) (_ : k < 2 ^ 64) (address : Word) (endian : Endianness),
      (∀ i < k, region (address.toNat + i)) →
      (Bytewise.readWord k address endian m').1 = (Bytewise.readWord k address endian m).1 := by
    intro k hk address endian hin
    rw [Bytewise.readWord_bytes hm' hk, Bytewise.readWord_bytes hm hk,
      readBytes_congr hsize fun i hi => hbytes _ (hin i hi)]
  refine ⟨?_, hword 4 (by decide), hword 8 (by decide), ?_⟩
  · intro address hin
    rw [Bytewise.readU8_eq hm', Bytewise.readU8_eq hm, checkRange_congr hsize, hbytes _ hin]
  · intro address count hin
    rw [Bytewise.readBytes_eq hm', Bytewise.readBytes_eq hm]
    exact readBytes_congr hsize fun i hi => hbytes _ (hin i hi)

/-- The bytes of a word in either order. -/
theorem getD_bytes {w : ℕ} (value : BitVec w) (endian : Endianness) {i : ℕ} (hi : i < n) :
    (endian.bytes n value).getD i 0 = orderedByte n value i endian := by
  rw [List.getD_eq_getElem?_getD]
  cases endian with
  | little => rw [Endianness.bytes, getElem?_leBytes value hi]; rfl
  | big => simp [Endianness.bytes, beBytes, hi, orderedByte, byteOf]

/-- Reading the bytes of a word in the other order reverses them. -/
theorem byteReversed_word (value : BitVec (8 * n)) (endian : Endianness) :
    ByteReversed n (endian.other.word (8 * n) (endian.bytes n value)) value := by
  have hword : endian.other.word (8 * n) (endian.bytes n value)
      = leWord (8 * n) (beBytes n value) := by
    cases endian with
    | little =>
      rw [beBytes_eq_reverse]
      exact beWord_eq_leWord_reverse (8 * n) (leBytes n value)
    | big => rfl
  have hbytes : leBytes n (leWord (8 * n) (beBytes n value)) = beBytes n value := by
    have h := leBytes_leWord (beBytes n value)
    rwa [length_beBytes] at h
  intro i hi
  have hget := congrArg (fun bs => bs.getD i 0) hbytes
  rw [hword]
  exact (getD_bytes _ .little hi).symm.trans (hget.trans (getD_bytes value .big hi))

/-- A word that is written byte by byte is spliced in. -/
theorem Bytewise.writeWord_eq_ok {m' : Memory} (hm : m.size < 2 ^ 64) (hn : n < 2 ^ 64)
    {value : BitVec (8 * n)} {endian : Endianness}
    (h : Bytewise.writeWord n address value endian m = (.ok (), m')) :
    address.toNat + n ≤ m.size ∧ m' = m.splice address.toNat (endian.bytes n value) := by
  rw [Bytewise.writeWord_eq hm hn, Exec.assign] at h
  rcases hc : m.checkRange address.toNat n with e | ⟨⟩
  · rw [hc] at h
    cases (Prod.ext_iff.mp h).1
  · rw [hc] at h
    exact ⟨checkRange_eq_ok.mp hc, (Prod.ext_iff.mp h).2.symm⟩

/-- A successful store through the loop. -/
theorem stored_splice {value : BitVec (8 * n)} {endian : Endianness} (hm : m.size < 2 ^ 64)
    (hn : n < 2 ^ 64) (hin : address.toNat + n ≤ m.size) :
    Stored (Bytewise.readWord n) address value endian m
      (m.splice address.toNat (endian.bytes n value)) := by
  have hspliced : address.toNat + (endian.bytes n value).length ≤ m.size := by simpa using hin
  have hsize := size_splice hspliced
  have hm' : (m.splice address.toNat (endian.bytes n value)).size < 2 ^ 64 := hsize ▸ hm
  have hslice := slice_splice_self hspliced
  rw [Endianness.length_bytes] at hslice
  have hload : ∀ order : Endianness,
      Bytewise.readWord n address order (m.splice address.toNat (endian.bytes n value))
        = (.ok (order.word (8 * n) (endian.bytes n value)),
          m.splice address.toNat (endian.bytes n value)) := by
    intro order
    rw [Bytewise.readWord_eq hm' hn, checkRange_eq_ok.mpr (hsize ▸ hin), hslice]
    rfl
  refine ⟨hsize, ?_, ⟨_, hload _, byteReversed_word value endian⟩, ?_, ?_⟩
  · rw [hload, Endianness.word_bytes]
  · intro i hi
    have haddress : (address + Word.ofSize i).toNat = address.toNat + i := toNat_add_ofSize (by omega)
    rw [Bytewise.readU8_eq hm', haddress, checkRange_eq_ok.mpr (by omega), byteAt_splice hspliced,
      if_pos (by rw [Endianness.length_bytes]; omega), Nat.add_sub_cancel_left,
      getD_bytes value endian hi]
    rfl
  · refine readsAlike_of_byteAt hm hsize fun i houtside => byteAt_splice_of_notMem hspliced ?_
    rwa [Endianness.length_bytes]

/-- Word accesses of any size behave as words. -/
theorem wordAccess_word (hm : m.size < 2 ^ 64) (hn : n < 2 ^ 64) :
    WordAccess n (Bytewise.readWord n) (Bytewise.writeWord n) m where
  -- Every access is a range check and then one read or write of all its bytes.
  load_ok_iff address endian := by
    rw [Bytewise.readWord_eq hm hn, ← checkRange_eq_ok]
    rcases m.checkRange address.toNat n with e | ⟨⟩
    · constructor
      · rintro ⟨_, ⟨⟩⟩
      · rintro ⟨⟩
    · exact ⟨fun _ => rfl, fun _ => ⟨_, rfl⟩⟩
  load_keeps address endian := by rw [Bytewise.readWord_eq hm hn]
  store_ok_iff address value endian := by
    rw [Bytewise.writeWord_eq hm hn, Exec.assign, ← checkRange_eq_ok]
    rcases m.checkRange address.toNat n with e | ⟨⟩
    · constructor <;> rintro ⟨⟩
    · exact ⟨fun _ => rfl, fun _ => rfl⟩
  stored address value endian m' h := by
    obtain ⟨hin, rfl⟩ := Bytewise.writeWord_eq_ok hm hn h
    exact stored_splice hm hn hin
  rejected address value endian e m' h := by
    rw [Bytewise.writeWord_eq hm hn, Exec.assign] at h
    rcases hc : m.checkRange address.toNat n with e' | ⟨⟩
    · rw [hc] at h
      exact (Prod.ext_iff.mp h).2.symm
    · rw [hc] at h
      cases (Prod.ext_iff.mp h).1
  load_bytes address endian := by
    rw [Bytewise.readWord_bytes hm hn, Bytewise.readBytes_eq hm, toNat_ofSize hn]
  store_bytes address value endian := by
    have hvalues : (endian.bytes n value).length < 2 ^ 64 := by rwa [Endianness.length_bytes]
    rw [Bytewise.writeWord_eq hm hn, Bytewise.writeBytes_eq hm hvalues, Exec.assign, Exec.assign,
      Memory.writeBytes, Endianness.length_bytes]
    rcases m.checkRange address.toNat n with e | ⟨⟩ <;> rfl

/-- An assignment behind a range check is not made when the check throws. -/
theorem unchanged_of_throw (hm : m.size < 2 ^ 64) {count : Word} {f : Memory → Memory} {e : Str}
    {m' : Memory}
    (h : (Bytewise.checkRange address count >>= fun _ => Exec.modify f) m = (.error e, m')) :
    m' = m := by
  rw [Exec.bind_apply, Bytewise.checkRange_eq hm] at h
  rcases hc : m.checkRange address.toNat count.toNat with e' | ⟨⟩
  · rw [hc] at h
    exact (Prod.ext_iff.mp h).2.symm
  · rw [hc] at h
    cases (Prod.ext_iff.mp h).1

/-- Words of memory: on a memory of any size, 32-bit, unsigned 64-bit and signed 64-bit accesses in
either byte order; and rejected stores of bytes. -/
theorem memory_words (m : Memory) (hm : m.size < 2 ^ 64) :
    WordAccess 4 Bytewise.readU32 Bytewise.writeU32 m
    ∧ WordAccess 8 Bytewise.readU64 Bytewise.writeU64 m
    ∧ WordAccess 8 Bytewise.readI64 Bytewise.writeI64 m
    ∧ (∀ address value e m', Bytewise.writeU8 address value m = (.error e, m') → m' = m)
    ∧ ∀ address values e m', Bytewise.writeBytes address values m = (.error e, m') → m' = m :=
  ⟨wordAccess_word (n := 4) hm (by decide), wordAccess_word (n := 8) hm (by decide),
    wordAccess_word (n := 8) hm (by decide), fun _ _ _ _ h => unchanged_of_throw hm h,
    fun _ _ _ _ h => unchanged_of_throw hm h⟩

/-- A memory of sixteen bytes. -/
theorem memory_words_page :
    WordAccess 4 Bytewise.readU32 Bytewise.writeU32 (ofSize 16)
    ∧ WordAccess 8 Bytewise.readU64 Bytewise.writeU64 (ofSize 16)
    ∧ WordAccess 8 Bytewise.readI64 Bytewise.writeI64 (ofSize 16)
    ∧ (∀ address value e m', Bytewise.writeU8 address value (ofSize 16) = (.error e, m')
      → m' = ofSize 16)
    ∧ ∀ address values e m', Bytewise.writeBytes address values (ofSize 16) = (.error e, m')
      → m' = ofSize 16 :=
  memory_words (ofSize 16) (by decide)

end

/-- The signed accesses are the word accesses of the rest of the development. -/
theorem Bytewise.readI64_eq {m : Memory} (hm : m.size < 2 ^ 64) (address : Word)
    (endian : Endianness) : Bytewise.readI64 address endian m = (m.readU64 address.toNat endian, m) :=
  Bytewise.readWord_eq (n := 8) hm (by decide) endian

/-- The signed write is the word write of the rest of the development. -/
theorem Bytewise.writeI64_eq {m : Memory} (hm : m.size < 2 ^ 64) (address value : Word)
    (endian : Endianness) : Bytewise.writeI64 address value endian m
      = Exec.assign (fun m => do pure ((), ← m.writeU64 address.toNat value endian)) m := by
  have hloop := @Bytewise.writeWord_eq m address 8 hm (by decide) value endian
  refine Eq.trans hloop ?_
  rw [Exec.assign, Exec.assign, Memory.writeU64]
  rcases m.checkRange address.toNat 8 with e | ⟨⟩ <;> rfl

end Memory

end ZeroCpu
