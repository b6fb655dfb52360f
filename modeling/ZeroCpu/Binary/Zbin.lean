import ZeroCpu.Isa.Encoding

/-!
# The `.zbin` format

Reference: `include/zero_cpu/binary/BinaryFormat.hpp`, `include/zero_cpu/binary/BinaryProgram.hpp`,
`src/binary/BinaryWriter.cpp`, `src/binary/BinaryReader.cpp`.

A file is a 16-byte (version 0.2) or 24-byte (version 0.3) header followed by the code and data
sections. The main results are the two round trips: a well-formed program is read back from what
was written, and an accepted file is exactly what the writer produces for the program read from it.
-/

namespace ZeroCpu.Binary

open Library

/-- `std::numeric_limits<std::size_t>::max()`. -/
def sizeMax : ℕ := 2 ^ 64 - 1

def kMagic : List UInt8 := ['Z', 'C', 'P', 'U']
def kMajorVersion : UInt8 := 0
def kLegacyMinorVersion : UInt8 := 2
def kMinorVersion : UInt8 := 3
def kLegacyHeaderSize : ℕ := 16
def kHeaderSize : ℕ := 24
def kInstructionAlignment : ℕ := kInstructionSize
def kMajorVersionOffset : ℕ := 4
def kMinorVersionOffset : ℕ := 5
def kEndiannessOffset : ℕ := 6
def kReservedOffset : ℕ := 7
def kEntryPointOffset : ℕ := 8
def kCodeSizeOffset : ℕ := 12
def kDataBaseOffset : ℕ := 16
def kDataSizeOffset : ℕ := 20

/-- The byte order of a file. -/
inductive BinaryEndianness where
  | Little
  | Big
deriving DecidableEq, Repr

/-- The enumerator's `std::uint8_t` value. -/
def BinaryEndianness.raw : BinaryEndianness → UInt8
  | .Little => 1
  | .Big => 2

/-- The byte order of the memory. -/
def toMemoryEndianness : BinaryEndianness → Endianness
  | .Little => .little
  | .Big => .big

/-- Version 0.2, which has no data section. -/
def isLegacyVersion (major minor : UInt8) : Bool :=
  major == kMajorVersion && minor == kLegacyMinorVersion

/-- Version 0.3. -/
def isCurrentVersion (major minor : UInt8) : Bool :=
  major == kMajorVersion && minor == kMinorVersion

/-- A version that can be read and written. -/
def isSupportedVersion (major minor : UInt8) : Bool :=
  isLegacyVersion major minor || isCurrentVersion major minor

/-- The size of a header, and zero for an unknown version. -/
def headerSizeForVersion (major minor : UInt8) : ℕ :=
  if isLegacyVersion major minor then kLegacyHeaderSize
  else if isCurrentVersion major minor then kHeaderSize
  else 0

/-- The address is aligned to an instruction. -/
def isValidInstructionAddress (address : ℕ) : Bool := address % kInstructionAlignment == 0

/-- The address of an instruction in the code. -/
def instructionIndexToAddress (index : ℕ) : ℕ := index * kInstructionSize

/-- The header of a file. -/
structure BinaryHeader where
  major_version : UInt8 := kMajorVersion
  minor_version : UInt8 := kMinorVersion
  endianness : BinaryEndianness := .Little
  entry_point : BitVec 32 := 0
  code_size : BitVec 32 := 0
  data_base : BitVec 32 := 0
  data_size : BitVec 32 := 0
deriving DecidableEq

/-- The header and both sections. -/
structure BinaryProgram where
  header : BinaryHeader := {}
  code : List UInt8 := []
  data : List UInt8 := []
deriving DecidableEq

namespace BinaryHeader

/-- The header is of the legacy version. -/
def isLegacy (header : BinaryHeader) : Bool :=
  isLegacyVersion header.major_version header.minor_version

/-- The header is of the current version. -/
def isCurrent (header : BinaryHeader) : Bool :=
  isCurrentVersion header.major_version header.minor_version

/-- The header is of a supported version. -/
def isSupported (header : BinaryHeader) : Bool :=
  isSupportedVersion header.major_version header.minor_version

/-- The size of the header. -/
def size (header : BinaryHeader) : ℕ :=
  headerSizeForVersion header.major_version header.minor_version

end BinaryHeader

/-! ## The writer -/

namespace BinaryWriter

/-- A 32-bit number in the byte order of the file. -/
def writeU32 (value : BitVec 32) (endian : BinaryEndianness) : List UInt8 :=
  (toMemoryEndianness endian).bytes 4 value

/-- The bytes of a header. -/
def writeHeader (header : BinaryHeader) : List UInt8 :=
  kMagic ++ [header.major_version, header.minor_version, header.endianness.raw, 0]
    ++ writeU32 header.entry_point header.endianness
    ++ writeU32 header.code_size header.endianness
    ++ if header.isCurrent then
        writeU32 header.data_base header.endianness ++ writeU32 header.data_size header.endianness
      else []

/-- The header the writer emits: section sizes from the sections, no data fields in a legacy
file. -/
def writtenHeader (program : BinaryProgram) : BinaryHeader :=
  let header := { program.header with
    code_size := BitVec.ofNat 32 program.code.length
    data_size := BitVec.ofNat 32 program.data.length }
  if header.isLegacy then { header with data_base := 0, data_size := 0 } else header

/-- The bytes of a file, when the program can be written. -/
def writeToBytes (program : BinaryProgram) : Except Str (List UInt8) := do
  reject (¬ program.header.isSupported) "Cannot write unsupported binary version"
  reject (program.code.length > 2 ^ 32 - 1 ∨ program.data.length > 2 ^ 32 - 1)
    "Binary section exceeds 32-bit size field"
  reject (program.header.isLegacy ∧ program.data ≠ [])
    "Legacy binary format cannot contain a data section"
  pure (writeHeader (writtenHeader program) ++ program.code ++ program.data)

end BinaryWriter

/-! ## The reader -/

namespace BinaryReader

/-- The `count` bytes at `offset`. -/
def field (bytes : List UInt8) (offset count : ℕ) : List UInt8 := (bytes.drop offset).take count

/-- The 32-bit number at an offset. -/
def readU32 (bytes : List UInt8) (offset : ℕ) (endian : BinaryEndianness) :
    Except Str (BitVec 32) := do
  reject (offset + 4 > bytes.length) "readU32 out of range"
  pure ((toMemoryEndianness endian).word 32 (field bytes offset 4))

/-- The byte order that a byte stands for. -/
def readEndianness (raw : UInt8) : Except Str BinaryEndianness :=
  if raw = BinaryEndianness.Little.raw then .ok .Little
  else if raw = BinaryEndianness.Big.raw then .ok .Big
  else .error "Unsupported binary endianness"

/-- The check of the first four bytes. -/
def validateMagic (bytes : List UInt8) : Except Str Unit := do
  reject (bytes.length < kMagic.length) "Binary file is too small to contain magic number"
  reject (field bytes 0 4 ≠ kMagic) "Invalid binary magic number"

/-- The header at the start of a file. -/
def readHeader (bytes : List UInt8) : Except Str BinaryHeader := do
  let major := bytes.getD kMajorVersionOffset 0
  let minor := bytes.getD kMinorVersionOffset 0
  let headerSize := headerSizeForVersion major minor
  reject (headerSize = 0) "Unsupported binary version"
  reject (bytes.length < headerSize) "Binary file is smaller than its versioned header"
  let endianness ← readEndianness (bytes.getD kEndiannessOffset 0)
  reject (bytes.getD kReservedOffset 0 ≠ 0) "Invalid binary header: reserved byte must be zero"
  let entry_point ← readU32 bytes kEntryPointOffset endianness
  let code_size ← readU32 bytes kCodeSizeOffset endianness
  if isCurrentVersion major minor then
    let data_base ← readU32 bytes kDataBaseOffset endianness
    let data_size ← readU32 bytes kDataSizeOffset endianness
    pure ⟨major, minor, endianness, entry_point, code_size, data_base, data_size⟩
  else
    pure ⟨major, minor, endianness, entry_point, code_size, 0, 0⟩

/-- The checks of a header. -/
def validateHeader (header : BinaryHeader) : Except Str Unit := do
  reject (¬ header.isSupported) "Unsupported binary version"
  reject (¬ isValidInstructionAddress header.entry_point.toNat)
    "Entry point is not instruction-aligned"
  reject (header.code_size.toNat % kInstructionSize ≠ 0)
    "Code size is not a multiple of instruction size"
  reject (header.entry_point.toNat ≥ header.code_size.toNat) "Entry point is outside code section"
  reject (header.isLegacy ∧ (header.data_base ≠ 0 ∨ header.data_size ≠ 0))
    "Legacy binary contains data metadata"

/-- The program in a file. -/
def readFromBytes (bytes : List UInt8) : Except Str BinaryProgram := do
  reject (bytes.length < kLegacyHeaderSize) "Binary file is smaller than the minimum header size"
  validateMagic bytes
  let header ← readHeader bytes
  validateHeader header
  let headerSize := header.size
  let codeSize := header.code_size.toNat
  let dataSize := header.data_size.toNat
  reject (codeSize > sizeMax - headerSize) "Binary file size overflow"
  let codeEnd := headerSize + codeSize
  reject (dataSize > sizeMax - codeEnd) "Binary file size overflow"
  let expectedSize := codeEnd + dataSize
  reject (bytes.length ≠ expectedSize) "Binary file size does not match section sizes in header"
  pure ⟨header, field bytes headerSize codeSize, bytes.drop codeEnd⟩

end BinaryReader

/-! ## Headers -/

open BinaryReader BinaryWriter

/-- A header carries no data fields in the legacy version. -/
def BinaryHeader.LegacyClean (header : BinaryHeader) : Prop :=
  header.isLegacy = true → header.data_base = 0 ∧ header.data_size = 0

/-- A supported header is of the legacy or the current version. -/
theorem BinaryHeader.isSupported_iff (header : BinaryHeader) :
    header.isSupported = true ↔ header.isLegacy = true ∨ header.isCurrent = true := by
  simp [isSupported, isSupportedVersion, isLegacy, isCurrent]

/-- A current header is not of the legacy version. -/
theorem BinaryHeader.isLegacy_of_isCurrent {header : BinaryHeader} (h : header.isCurrent = true) :
    header.isLegacy = false := by
  simp only [isCurrent, isCurrentVersion, isLegacy, isLegacyVersion, Bool.and_eq_true,
    beq_iff_eq] at h ⊢
  rw [h.1, h.2]
  rfl

/-- A 32-bit number is written as four bytes that read as the number. -/
theorem writeU32_cases (value : BitVec 32) (endian : BinaryEndianness) :
    ∃ a b c d, writeU32 value endian = [a, b, c, d]
      ∧ (toMemoryEndianness endian).word 32 [a, b, c, d] = value := by
  have hlen : (writeU32 value endian).length = 4 := Endianness.length_bytes 4 _ value
  obtain ⟨a, b, c, d, h⟩ : ∃ a b c d, writeU32 value endian = [a, b, c, d] := by
    match writeU32 value endian, hlen with
    | [a, b, c, d], _ => exact ⟨a, b, c, d, rfl⟩
  refine ⟨a, b, c, d, h, ?_⟩
  rw [← h]
  exact Endianness.word_bytes (n := 4) _ value

/-- The writer's bytes of a word read from four bytes are those bytes. -/
theorem writeU32_word {bs : List UInt8} (h : bs.length = 4) (endian : BinaryEndianness) :
    writeU32 ((toMemoryEndianness endian).word 32 bs) endian = bs := by
  have := Endianness.bytes_word (toMemoryEndianness endian) bs
  rw [h] at this
  exact this

/-- A header is written with its size. -/
theorem length_writeHeader {header : BinaryHeader} (h : header.isSupported = true) :
    (writeHeader header).length = header.size := by
  rw [BinaryHeader.isSupported_iff] at h
  by_cases hc : header.isCurrent = true
  · have hl := BinaryHeader.isLegacy_of_isCurrent hc
    have hs : header.size = 24 := by
      simp only [BinaryHeader.isCurrent, BinaryHeader.isLegacy] at hc hl
      simp [BinaryHeader.size, headerSizeForVersion, hc, hl, kHeaderSize]
    simp [writeHeader, hc, kMagic, writeU32, hs]
  · have hl : header.isLegacy = true := h.resolve_right hc
    have hs : header.size = 16 := by
      simp only [BinaryHeader.isLegacy] at hl
      simp [BinaryHeader.size, headerSizeForVersion, hl, kLegacyHeaderSize]
    simp [writeHeader, hc, kMagic, writeU32, hs]

theorem drop_eq_field_append (bytes : List UInt8) (offset count : ℕ) :
    bytes.drop offset = field bytes offset count ++ bytes.drop (offset + count) := by
  exact drop_eq_take_append bytes offset count

/-- A field inside the file has its length. -/
theorem length_field {bytes : List UInt8} {offset count : ℕ} (h : offset + count ≤ bytes.length) :
    (field bytes offset count).length = count := by
  simp only [field, List.length_take, List.length_drop]
  omega

/-- A byte that `readEndianness` accepts is the byte of the byte order it returns. -/
theorem readEndianness_eq_ok {raw : UInt8} {endian : BinaryEndianness} :
    readEndianness raw = .ok endian ↔ raw = endian.raw := by
  unfold readEndianness
  cases endian <;> split_ifs with h1 h2 <;> simp_all [BinaryEndianness.raw]

/-- A number is read exactly where its bytes are. -/
theorem readU32_eq_ok {bytes : List UInt8} {offset : ℕ} {endian : BinaryEndianness}
    {value : BitVec 32} :
    readU32 bytes offset endian = .ok value
      ↔ offset + 4 ≤ bytes.length ∧ field bytes offset 4 = writeU32 value endian := by
  simp only [readU32, bind_eq_ok, reject_eq_ok, exists_const, Nat.not_lt, gt_iff_lt]
  refine and_congr_right fun hlen => ?_
  constructor
  · intro h
    cases h
    exact (writeU32_word (length_field hlen) endian).symm
  · intro h
    rw [h]
    exact congrArg Except.ok (Endianness.word_bytes (n := 4) _ value)

/-- The size of a header tells its version. -/
theorem headerSizeForVersion_cases (major minor : UInt8) (h : headerSizeForVersion major minor ≠ 0) :
    (isCurrentVersion major minor = true ∧ isLegacyVersion major minor = false
        ∧ headerSizeForVersion major minor = 24)
      ∨ (isCurrentVersion major minor = false ∧ isLegacyVersion major minor = true
        ∧ headerSizeForVersion major minor = 16) := by
  unfold headerSizeForVersion at h ⊢
  have hne : isCurrentVersion major minor = true → isLegacyVersion major minor = false :=
    fun hc => @BinaryHeader.isLegacy_of_isCurrent ⟨major, minor, .Little, 0, 0, 0, 0⟩ hc
  cases hc : isCurrentVersion major minor <;> cases hl : isLegacyVersion major minor
  · simp [hc, hl] at h
  · exact .inr ⟨rfl, rfl, rfl⟩
  · exact .inl ⟨rfl, rfl, rfl⟩
  · rw [hne hc] at hl
    cases hl

/-- The first eight bytes of a file with an accepted magic number and reserved byte. -/
theorem eq_fixed_header_append {bytes : List UInt8} {endian : BinaryEndianness}
    (hlen : 16 ≤ bytes.length) (hmagic : field bytes 0 4 = kMagic)
    (hendian : bytes.getD kEndiannessOffset 0 = endian.raw)
    (hreserved : bytes.getD kReservedOffset 0 = 0) :
    bytes = kMagic ++ [bytes.getD kMajorVersionOffset 0, bytes.getD kMinorVersionOffset 0,
      endian.raw, 0] ++ bytes.drop 8 := by
  have h4 : bytes.drop 4 = bytes.getD 4 0 :: bytes.getD 5 0 :: bytes.getD 6 0 :: bytes.getD 7 0
      :: bytes.drop 8 := by
    rw [drop_eq_getD_cons 4 (by omega), drop_eq_getD_cons 5 (by omega),
      drop_eq_getD_cons 6 (by omega), drop_eq_getD_cons 7 (by omega)]
  calc bytes = field bytes 0 4 ++ bytes.drop 4 := drop_eq_field_append bytes 0 4
    _ = _ := by
      rw [hmagic, h4]
      simp only [kEndiannessOffset, kReservedOffset] at hendian hreserved
      rw [hendian, hreserved]
      simp [kMajorVersionOffset, kMinorVersionOffset]

/-- An accepted header is the one the writer puts in front of the sections. -/
theorem bytes_of_readHeader {bytes : List UInt8} {header : BinaryHeader}
    (hlen : 16 ≤ bytes.length) (hmagic : validateMagic bytes = .ok ())
    (hread : readHeader bytes = .ok header) :
    header.isSupported = true ∧ header.LegacyClean ∧ header.size ≤ bytes.length
      ∧ bytes = writeHeader header ++ bytes.drop header.size := by
  simp only [validateMagic, bind_eq_ok, reject_eq_ok, exists_const, not_not] at hmagic
  simp only [readHeader, bind_eq_ok, reject_eq_ok, exists_const, Nat.not_lt, not_not,
    readEndianness_eq_ok, readU32_eq_ok] at hread
  obtain ⟨hsize, hfits, endian, hendian, hreserved, entry, ⟨-, hentry⟩, code, ⟨-, hcode⟩, h⟩ := hread
  have hfixed := eq_fixed_header_append hlen hmagic.2 hendian hreserved
  have h8 : bytes.drop 8 = writeU32 entry endian ++ writeU32 code endian ++ bytes.drop 16 := by
    rw [drop_eq_field_append bytes 8 4, drop_eq_field_append bytes 12 4]
    simp only [kEntryPointOffset, kCodeSizeOffset] at hentry hcode
    rw [hentry, hcode, List.append_assoc]
  -- The current header has two words more than the legacy one.
  rcases headerSizeForVersion_cases _ _ hsize with ⟨hc, hl, hs⟩ | ⟨hc, hl, hs⟩
  · simp only [hc, if_true, bind_eq_ok, readU32_eq_ok] at h
    obtain ⟨base, ⟨-, hbase⟩, data, ⟨-, hdata⟩, heq⟩ := h
    cases heq
    have h16 : bytes.drop 16 = writeU32 base endian ++ writeU32 data endian ++ bytes.drop 24 := by
      rw [drop_eq_field_append bytes 16 4, drop_eq_field_append bytes 20 4]
      simp only [kDataBaseOffset, kDataSizeOffset] at hbase hdata
      rw [hbase, hdata, List.append_assoc]
    refine ⟨(BinaryHeader.isSupported_iff _).mpr (.inr hc), ?_, hfits, ?_⟩
    · intro hlegacy
      cases hl.symm.trans hlegacy
    · rw [h8, h16] at hfixed
      simp only [writeHeader, BinaryHeader.isCurrent, BinaryHeader.size, hc, hs, if_true]
      simpa only [List.append_assoc] using hfixed
  · simp only [hc, Bool.false_eq_true, if_false] at h
    cases h
    refine ⟨(BinaryHeader.isSupported_iff _).mpr (.inl hl), fun _ => ⟨rfl, rfl⟩, hfits, ?_⟩
    rw [h8] at hfixed
    simp only [writeHeader, BinaryHeader.isCurrent, BinaryHeader.size, hc, hs, Bool.false_eq_true,
      if_false]
    simpa only [List.append_assoc, List.append_nil, List.nil_append] using hfixed

/-- The reader accepts the writer's header, whatever follows it. -/
theorem readHeader_writeHeader (header : BinaryHeader) (hsupp : header.isSupported = true)
    (hclean : header.LegacyClean) (rest : List UInt8) :
    validateMagic (writeHeader header ++ rest) = .ok ()
      ∧ readHeader (writeHeader header ++ rest) = .ok header := by
  obtain ⟨major, minor, endian, entry, code, base, data⟩ := header
  -- Written out byte by byte, so that every field is found at its offset.
  obtain ⟨e0, e1, e2, e3, he, hev⟩ := writeU32_cases entry endian
  obtain ⟨c0, c1, c2, c3, hc, hcv⟩ := writeU32_cases code endian
  obtain ⟨b0, b1, b2, b3, hb, hbv⟩ := writeU32_cases base endian
  obtain ⟨d0, d1, d2, d3, hd, hdv⟩ := writeU32_cases data endian
  have hendian : readEndianness endian.raw = .ok endian := readEndianness_eq_ok.mpr rfl
  have hsize : headerSizeForVersion major minor ≠ 0 := by
    unfold headerSizeForVersion
    rw [BinaryHeader.isSupported_iff] at hsupp
    simp only [BinaryHeader.isLegacy, BinaryHeader.isCurrent] at hsupp
    split_ifs <;> simp_all [kLegacyHeaderSize, kHeaderSize]
  have hmagic : ∀ tail, validateMagic (kMagic ++ tail) = .ok () := by
    intro tail
    simp only [validateMagic, bind_eq_ok, reject_eq_ok, exists_const]
    simp [kMagic, field]
  refine ⟨by simpa only [writeHeader, List.append_assoc] using hmagic _, ?_⟩
  simp only [readHeader, bind_eq_ok, reject_eq_ok, exists_const, readEndianness_eq_ok]
  rcases headerSizeForVersion_cases major minor hsize with ⟨hcur, hl, hs⟩ | ⟨hcur, hl, hs⟩
  · simp [writeHeader, kMagic, BinaryHeader.isCurrent, hcur, hs, he, hc, hb, hd,
      kMajorVersionOffset, kMinorVersionOffset, kEndiannessOffset, kReservedOffset,
      kEntryPointOffset, kCodeSizeOffset, kDataBaseOffset, kDataSizeOffset, readU32,
      field, bind_eq_ok, hev, hcv, hbv, hdv, pure, Except.pure]
  · obtain ⟨hz1, hz2⟩ := hclean hl
    simp only at hz1 hz2
    simp [writeHeader, kMagic, BinaryHeader.isCurrent, hcur, hs, he, hc,
      kMajorVersionOffset, kMinorVersionOffset, kEndiannessOffset, kReservedOffset,
      kEntryPointOffset, kCodeSizeOffset, readU32, field, bind_eq_ok, hev, hcv, pure,
      Except.pure, hz1, hz2]

/-! ## Round trips -/

/-- The programs the format can represent. -/
structure Representable (program : BinaryProgram) : Prop where
  supported : program.header.isSupported = true
  legacy_data : program.header.isLegacy = true → program.data = []
  code_length : program.code.length < 2 ^ 32
  data_length : program.data.length < 2 ^ 32
  code_aligned : program.code.length % kInstructionSize = 0
  entry_aligned : program.header.entry_point.toNat % kInstructionSize = 0
  entry_in_code : program.header.entry_point.toNat < program.code.length

/-- The header after a round trip: section sizes filled in, no data base in a legacy file. -/
def BinaryProgram.normalized (program : BinaryProgram) : BinaryProgram :=
  { program with header := { program.header with
      code_size := BitVec.ofNat 32 program.code.length
      data_size := BitVec.ofNat 32 program.data.length
      data_base := if program.header.isLegacy then 0 else program.header.data_base } }

/-- The header that is written is the normalized one. -/
theorem writtenHeader_eq {program : BinaryProgram} (h : Representable program) :
    writtenHeader program = program.normalized.header := by
  unfold writtenHeader BinaryProgram.normalized
  by_cases hl : program.header.isLegacy = true
  · have hdata := h.legacy_data hl
    simp only [BinaryHeader.isLegacy] at hl
    simp [BinaryHeader.isLegacy, hl, hdata]
  · simp only [BinaryHeader.isLegacy] at hl
    simp [BinaryHeader.isLegacy, hl]

/-- A normalized header passes its checks. -/
theorem validateHeader_normalized {program : BinaryProgram} (h : Representable program) :
    validateHeader program.normalized.header = .ok () := by
  have hcode : (BitVec.ofNat 32 program.code.length).toNat = program.code.length :=
    Nat.mod_eq_of_lt h.code_length
  have hentry := h.entry_in_code
  simp only [validateHeader, bind_eq_ok, reject_eq_ok, exists_const]
  simp only [BinaryProgram.normalized, hcode]
  refine ⟨not_not.mpr h.supported, ?_, not_not.mpr h.code_aligned, by omega, ?_⟩
  · simpa [isValidInstructionAddress, kInstructionAlignment] using h.entry_aligned
  · rintro ⟨hl, hbad⟩
    have hdata := h.legacy_data hl
    simp only [BinaryHeader.isLegacy] at hl hbad
    simp [hl, hdata] at hbad

/-- A header and its sections are read back. -/
theorem readFromBytes_append {header : BinaryHeader} {code data : List UInt8}
    (hsupp : header.isSupported = true) (hclean : header.LegacyClean)
    (hvalid : validateHeader header = .ok ()) (hcode : header.code_size.toNat = code.length)
    (hdata : header.data_size.toNat = data.length) :
    readFromBytes (writeHeader header ++ code ++ data) = .ok ⟨header, code, data⟩ := by
  have hlen := length_writeHeader hsupp
  have hsize : header.size = 24 ∨ header.size = 16 := by
    unfold BinaryHeader.size headerSizeForVersion
    rw [BinaryHeader.isSupported_iff] at hsupp
    simp only [BinaryHeader.isLegacy, BinaryHeader.isCurrent] at hsupp
    split_ifs <;> simp_all [kLegacyHeaderSize, kHeaderSize]
  obtain ⟨hmagic, hread⟩ := readHeader_writeHeader header hsupp hclean (code ++ data)
  have hb1 := header.code_size.isLt
  have hb2 := header.data_size.isLt
  rw [← List.append_assoc] at hmagic hread
  -- Both sections are where the sizes of the header say.
  have hfield : field (writeHeader header ++ code ++ data) header.size header.code_size.toNat
      = code := by
    rw [field, ← hlen, List.append_assoc, List.drop_left, hcode, List.take_left]
  have hdrop : (writeHeader header ++ code ++ data).drop (header.size + header.code_size.toNat)
      = data := by
    rw [← hlen, hcode, ← List.length_append, List.drop_left]
  have htotal : (writeHeader header ++ code ++ data).length
      = header.size + header.code_size.toNat + header.data_size.toNat := by
    rw [List.length_append, List.length_append, hlen, hcode, hdata]
  unfold readFromBytes
  rw [reject_of_not (by rw [htotal, kLegacyHeaderSize]; omega), hmagic, hread]
  simp only [ok_bind]
  rw [hvalid, reject_of_not (by rw [sizeMax]; omega), reject_of_not (by rw [sizeMax]; omega),
    reject_of_not (by rw [htotal]; omega)]
  simp only [ok_bind]
  rw [hfield, hdrop]
  rfl

/-- A representable program is read back from its file, with its section sizes filled in. -/
theorem readFromBytes_writeToBytes {program : BinaryProgram} (h : Representable program) :
    ∃ bytes, writeToBytes program = .ok bytes
      ∧ readFromBytes bytes = .ok program.normalized := by
  refine ⟨writeHeader program.normalized.header ++ program.code ++ program.data, ?_, ?_⟩
  · have h1 := h.code_length
    have h2 := h.data_length
    rw [writeToBytes, reject_of_not (not_not.mpr h.supported), reject_of_not (by omega),
      reject_of_not (fun hl => hl.2 (h.legacy_data hl.1)), writtenHeader_eq h]
    rfl
  · refine readFromBytes_append h.supported ?_ (validateHeader_normalized h)
      (Nat.mod_eq_of_lt h.code_length) (Nat.mod_eq_of_lt h.data_length)
    intro hl
    have hdata := h.legacy_data hl
    change program.header.isLegacy = true at hl
    simp [BinaryProgram.normalized, hl, hdata]

/-- An accepted file is what the writer produces for the program read from it. -/
theorem writeToBytes_readFromBytes {bytes : List UInt8} {program : BinaryProgram}
    (h : readFromBytes bytes = .ok program) : writeToBytes program = .ok bytes := by
  simp only [readFromBytes, bind_eq_ok, reject_eq_ok, exists_const, Nat.not_lt, not_not] at h
  obtain ⟨hlen, _, hmagic, header, hread, _, hvalid, -, -, htotal, heq⟩ := h
  cases heq
  obtain ⟨hsupp, hclean, hfits, hbytes⟩ := bytes_of_readHeader hlen hmagic hread
  have hb1 := header.code_size.isLt
  have hb2 := header.data_size.isLt
  have hcode : (field bytes header.size header.code_size.toNat).length = header.code_size.toNat :=
    length_field (by omega)
  have hdata : (bytes.drop (header.size + header.code_size.toNat)).length
      = header.data_size.toNat := by
    rw [List.length_drop]
    omega
  -- The sizes of the header are those of the sections, so writing does not change it.
  have hheader : writtenHeader ⟨header, field bytes header.size header.code_size.toNat,
      bytes.drop (header.size + header.code_size.toNat)⟩ = header := by
    unfold writtenHeader
    simp only [hcode, hdata, BitVec.ofNat_toNat, BitVec.setWidth_eq]
    split
    · obtain ⟨hbase, hsize⟩ := hclean ‹_›
      rcases header with ⟨major, minor, endian, entry, code, base, size⟩
      simp only at hbase hsize
      rw [hbase, hsize]
    · rfl
  unfold writeToBytes
  rw [reject_of_not (not_not.mpr hsupp), reject_of_not (by simp only [hcode, hdata]; omega),
    reject_of_not, hheader]
  · simp only [ok_bind]
    rw [List.append_assoc, ← drop_eq_field_append, ← hbytes]
    rfl
  · rintro ⟨hl, hne⟩
    refine hne (List.length_eq_zero_iff.mp ?_)
    rw [hdata, (hclean hl).2]
    rfl

/-- The `.zbin` format round-trips in both directions. -/
theorem zbin_round_trips :
    (∀ program, Representable program →
      ∃ bytes, writeToBytes program = .ok bytes ∧ readFromBytes bytes = .ok program.normalized)
    ∧ ∀ bytes program, readFromBytes bytes = .ok program → writeToBytes program = .ok bytes :=
  ⟨fun _ => readFromBytes_writeToBytes, fun _ _ => writeToBytes_readFromBytes⟩

/-- A `NOP` and the `HALT` that is entered, with three bytes of data, as a big-endian file. -/
def bigProgram : BinaryProgram where
  header := { endianness := .Big, entry_point := 24, data_base := 16 }
  code := List.replicate 24 0 ++ 1 :: List.replicate 23 0
  data := [1, 2, 255]

/-- The same code as a little-endian file of the legacy version, which has no place for data. -/
def legacyProgram : BinaryProgram where
  header := { minor_version := kLegacyMinorVersion, entry_point := 24, data_base := 16 }
  code := List.replicate 24 0 ++ 1 :: List.replicate 23 0

/-- Both come back, the legacy one without its data base. -/
theorem zbin_round_trips_both :
    (∃ bytes, writeToBytes bigProgram = .ok bytes ∧ bytes.length = kHeaderSize + 51
        ∧ readFromBytes bytes = .ok bigProgram.normalized
        ∧ writeToBytes bigProgram.normalized = .ok bytes)
      ∧ bigProgram.normalized.header.data_base = 16
      ∧ (∃ bytes, writeToBytes legacyProgram = .ok bytes ∧ bytes.length = kLegacyHeaderSize + 48
        ∧ readFromBytes bytes = .ok legacyProgram.normalized
        ∧ writeToBytes legacyProgram.normalized = .ok bytes)
      ∧ legacyProgram.normalized.header.data_base = 0 := by
  have hbig : Representable bigProgram := by constructor <;> decide
  have hlegacy : Representable legacyProgram := by constructor <;> decide
  obtain ⟨bytes, hwrite, hread⟩ := zbin_round_trips.1 bigProgram hbig
  obtain ⟨bytes', hwrite', hread'⟩ := zbin_round_trips.1 legacyProgram hlegacy
  have hlength : (writeToBytes bigProgram).map List.length = .ok (kHeaderSize + 51) := by decide +kernel
  have hlength' : (writeToBytes legacyProgram).map List.length = .ok (kLegacyHeaderSize + 48) := by
    decide +kernel
  rw [hwrite] at hlength
  rw [hwrite'] at hlength'
  exact ⟨⟨bytes, hwrite, Except.ok.inj hlength, hread, zbin_round_trips.2 bytes _ hread⟩, rfl,
    ⟨bytes', hwrite', Except.ok.inj hlength', hread', zbin_round_trips.2 bytes' _ hread'⟩, rfl⟩

end ZeroCpu.Binary
