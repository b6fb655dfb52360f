import ZeroCpu.Kernel.SyscallFrame
import ZeroCpu.System.ZeroFsTree

/-!
# What a file system call does

Reference: `ProtectedFilesystemService::handle` in `src/kernel/ProtectedFilesystemService.cpp`.

A call is refused before it has changed anything, or it carries out one ZeroFS operation between the
guest's buffers and the file system. There is one exception: `FS_STAT` writes its two output fields
one after the other, and a request block whose second field does not fit has received the first.
-/

namespace ZeroCpu.Kernel

open Library Exec MemoryMap Sys

/-! ## The request block -/

/-- A field of the request block is a word of the User data window. -/
structure FieldFits (memory : Memory) (request : Word) (offset : ℕ) : Prop where
  nonneg : 0 ≤ request.toInt
  aligned : (request.toNat + offset) % 8 = 0
  window : request.toNat + offset + 8 ≤ 512
  size : request.toNat + offset + 8 ≤ memory.size

/-- The word in a field of the request block. -/
def fieldWord (memory : Memory) (request : Word) (offset : ℕ) : Word :=
  leWord 64 (memory.slice (request.toNat + offset) 8)

/-- The memory after a word has been stored. -/
def storeWord (memory : Memory) (address : ℕ) (value : Word) : Memory :=
  memory.splice address (leBytes 8 value)

/-- A field has an address exactly when it is aligned and inside the window. -/
theorem requestField_eq_some_iff {request : Word} {offset address : ℕ} :
    requestField request offset = some address
      ↔ 0 ≤ request.toInt ∧ address = request.toNat + offset ∧ address % 8 = 0
        ∧ address + 8 ≤ 512 := by
  have hend : kUserDataEndExclusive = 512 := rfl
  have hrange := isUserDataRange_iff (request.toNat + offset) 8
  rw [requestField, hend]
  dsimp only
  constructor
  · intro h
    split_ifs at h with hsign hbase hfield
    obtain rfl := Option.some.inj h
    obtain ⟨haligned, hwindow⟩ := not_or.mp hfield
    exact ⟨not_lt.mp hsign, rfl, not_not.mp haligned, hrange.mp (Bool.not_eq_false _ ▸ hwindow)⟩
  · rintro ⟨hsign, rfl, haligned, hwindow⟩
    rw [if_neg (not_lt.mpr hsign), if_neg (by omega),
      if_neg (by rw [hrange.mpr hwindow]; simpa using haligned)]

/-- A field is read exactly when it fits. -/
theorem readRequestI64_eq_ok {memory : Memory} {request : Word} {offset : ℕ} {value : Word} :
    readRequestI64 memory request offset = .ok (some value)
      ↔ FieldFits memory request offset ∧ value = fieldWord memory request offset := by
  rw [readRequestI64]
  cases hfield : requestField request offset with
  | none =>
    constructor
    · intro h
      cases h
    · rintro ⟨hfits, -⟩
      have hsome := requestField_eq_some_iff.mpr
        ⟨hfits.nonneg, rfl, hfits.aligned, hfits.window⟩
      rw [hfield] at hsome
      cases hsome
  | some address =>
    obtain ⟨hsign, rfl, haligned, hwindow⟩ := requestField_eq_some_iff.mp hfield
    show (memory.read (request.toNat + offset) >>= fun value => pure (some value)) = _ ↔ _
    rw [Library.bind_eq_ok]
    constructor
    · rintro ⟨word, hword, h⟩
      obtain rfl := Option.some.inj (Except.ok.inj h)
      obtain ⟨hsize, hvalue⟩ := Memory.read_eq_ok.mp hword
      exact ⟨⟨hsign, haligned, hwindow, hsize⟩, hvalue⟩
    · rintro ⟨hfits, rfl⟩
      exact ⟨_, Memory.read_eq_ok.mpr ⟨hfits.size, rfl⟩, rfl⟩

section Write

variable {s : CPUState × ZeroFS} {request : Word} {offset : ℕ}

/-- A field that fits is written. -/
theorem writeRequestI64_of_fits (h : FieldFits s.1.memory request offset) (value : Word) :
    writeRequestI64 request offset value s
      = (.ok true, ({ s.1 with memory := storeWord s.1.memory (request.toNat + offset) value }, s.2)) := by
  have hfield := requestField_eq_some_iff.mpr ⟨h.nonneg, rfl, h.aligned, h.window⟩
  have hwrite : s.1.memory.write (request.toNat + offset) value
      = .ok (storeWord s.1.memory (request.toNat + offset) value) :=
    Memory.write_eq_ok.mpr ⟨h.size, rfl⟩
  simp only [writeRequestI64, hfield, Exec.bind_apply, Exec.get_apply, guest, Exec.lift_apply, hwrite]
  rfl

/-- A field that does not fit is not written: the service says so, or the store throws. -/
theorem writeRequestI64_of_not_fits (h : ¬ FieldFits s.1.memory request offset) (value : Word) :
    writeRequestI64 request offset value s = (.ok false, s)
      ∨ writeRequestI64 request offset value s = (.error none, s) := by
  rw [writeRequestI64]
  cases hfield : requestField request offset with
  | none => exact .inl rfl
  | some address =>
    obtain ⟨hsign, rfl, haligned, hwindow⟩ := requestField_eq_some_iff.mp hfield
    refine .inr ?_
    cases hwrite : s.1.memory.write (request.toNat + offset) value with
    | error e =>
      simp only [Exec.bind_apply, Exec.get_apply, guest, Exec.lift_apply, hwrite]
      rfl
    | ok memory =>
      exact absurd ⟨hsign, haligned, hwindow, (Memory.write_eq_ok.mp hwrite).1⟩ h

end Write

/-! ## The path -/

/-- A range of the User data window, as the request names it. -/
structure GuestRange (memory : Memory) (address count : Word) : Prop where
  nonneg : 0 ≤ address.toInt ∧ 0 ≤ count.toInt
  window : address.toNat + count.toNat ≤ 512
  size : address.toNat + count.toNat ≤ memory.size

/-- A range is valid exactly when it is inside the window. -/
theorem validGuestRange_eq_true {address count : Word} :
    validGuestRange address count = true
      ↔ (0 ≤ address.toInt ∧ 0 ≤ count.toInt) ∧ address.toNat + count.toNat ≤ 512 := by
  rw [validGuestRange]
  split_ifs with h
  · constructor
    · intro h
      cases h
    · rintro ⟨hsigns, -⟩
      omega
  · rw [isUserDataRange_iff]
    constructor
    · exact fun hwindow => ⟨by omega, hwindow⟩
    · exact fun h => h.2

/-- The path that a request names: guest bytes at the pointer in its first field, as many as its
second field says. -/
structure NamedPath (memory : Memory) (request : Word) (path : Str) : Prop where
  pointer : FieldFits memory request ABI.kFilesystemPathPointerOffset
  length : FieldFits memory request ABI.kFilesystemPathLengthOffset
  bounds : 0 < (fieldWord memory request ABI.kFilesystemPathLengthOffset).toInt
    ∧ (fieldWord memory request ABI.kFilesystemPathLengthOffset).toInt ≤ ABI.kFilesystemMaxPathLength
  range : GuestRange memory (fieldWord memory request ABI.kFilesystemPathPointerOffset)
    (fieldWord memory request ABI.kFilesystemPathLengthOffset)
  bytes : path = memory.slice (fieldWord memory request ABI.kFilesystemPathPointerOffset).toNat
    (fieldWord memory request ABI.kFilesystemPathLengthOffset).toNat

/-- A path that is read is the one the request names. -/
theorem namedPath_of_readPath {memory : Memory} {request : Word} {path : Str}
    (h : readPath memory request = .ok (.ok path)) : NamedPath memory request path := by
  obtain ⟨pointer, hpointer, h⟩ := Library.bind_eq_ok.mp h
  cases pointer with
  | none => cases Except.ok.inj h
  | some pointer =>
    obtain ⟨length, hlength, h⟩ := Library.bind_eq_ok.mp h
    cases length with
    | none => cases Except.ok.inj h
    | some length =>
      obtain ⟨hpointerFits, rfl⟩ := readRequestI64_eq_ok.mp hpointer
      obtain ⟨hlengthFits, rfl⟩ := readRequestI64_eq_ok.mp hlength
      dsimp only at h
      split_ifs at h with hbounds hrange
      · cases Except.ok.inj h
      · cases Except.ok.inj h
      · obtain ⟨bytes, hbytes, h⟩ := Library.bind_eq_ok.mp h
        obtain rfl := Except.ok.inj (Except.ok.inj h)
        obtain ⟨hsize, hslice⟩ := Memory.readBytes_eq_ok.mp hbytes
        obtain ⟨hsigns, hwindow⟩ := validGuestRange_eq_true.mp (by simpa using hrange)
        exact ⟨hpointerFits, hlengthFits, by omega, ⟨hsigns, hwindow, hsize⟩, hslice⟩

/-- A refused path is reported with a failure. -/
theorem status_of_readPath {memory : Memory} {request status : Word}
    (h : readPath memory request = .ok (.error status)) : status ≠ ABI.kStatusOk := by
  obtain ⟨pointer, -, h⟩ := Library.bind_eq_ok.mp h
  cases pointer with
  | none =>
    obtain rfl := Except.error.inj (Except.ok.inj h)
    decide
  | some pointer =>
    obtain ⟨length, -, h⟩ := Library.bind_eq_ok.mp h
    cases length with
    | none =>
      obtain rfl := Except.error.inj (Except.ok.inj h)
      decide
    | some length =>
      dsimp only at h
      split_ifs at h
      · obtain rfl := Except.error.inj (Except.ok.inj h)
        decide
      · obtain rfl := Except.error.inj (Except.ok.inj h)
        decide
      · obtain ⟨bytes, -, h⟩ := Library.bind_eq_ok.mp h
        cases Except.ok.inj h

/-! ## Status -/

/-- A result that reports a failure. -/
def Refused (result : SoftwareInterruptResult) : Prop :=
  ∃ status, result.status = some status ∧ status ≠ ABI.kStatusOk

/-- The `catch` clauses: what the service returns when its `try` block ends like this. -/
def settled (result : SoftwareInterruptResult) :
    Except FilesystemFault SoftwareInterruptResult → SoftwareInterruptResult
  | .ok returned => returned
  | .error fault => { result with status := some (faultStatus fault) }

/-- An exception is never reported as success. -/
theorem faultStatus_ne_ok (fault : FilesystemFault) : faultStatus fault ≠ ABI.kStatusOk := by
  rcases fault with _ | error
  · decide
  · cases error <;> decide

theorem refused_of_status {result : SoftwareInterruptResult} {status : Word}
    (h : status ≠ ABI.kStatusOk) : Refused { result with status := some status } :=
  ⟨status, rfl, h⟩

theorem refused_fault (result : SoftwareInterruptResult) (fault : FilesystemFault) :
    Refused (settled result (.error fault)) :=
  refused_of_status (faultStatus_ne_ok fault)

/-- The result that a request starts with. -/
def requestResult (request : Word) : SoftwareInterruptResult :=
  { argument0 := some request, status := some ABI.kStatusOk }

/-- The service when the path can be read: the `try` block and its `catch` clauses. -/
theorem filesystemService_of_path {service : Word} {s : CPUState × ZeroFS} {path : Str}
    (h : readPath s.1.memory (s.1.registers .R2) = .ok (.ok path)) :
    filesystemService service s
      = let out := filesystemCall service (s.1.registers .R2) path
          (requestResult (s.1.registers .R2)) s
        (.ok (settled (requestResult (s.1.registers .R2)) out.1), out.2) := by
  simp only [filesystemService, getRegister, Exec.bind_apply, Exec.gets_apply, Exec.get_apply,
    Exec.lift_apply, ABI.kArgument0ResultRegister, h, Exec.attempt, requestResult]
  generalize filesystemCall service (s.1.registers .R2) path _ s = out
  rcases out with ⟨fault | result, s'⟩ <;> rfl

/-- Without a path the service refuses, or throws, and has changed nothing. -/
theorem filesystemService_of_no_path {service : Word} {s : CPUState × ZeroFS}
    (h : ∀ path, readPath s.1.memory (s.1.registers .R2) ≠ .ok (.ok path)) :
    (filesystemService service s).2 = s
      ∧ ∀ result, (filesystemService service s).1 = .ok result → Refused result := by
  simp only [filesystemService, getRegister, Exec.bind_apply, Exec.gets_apply, Exec.get_apply,
    Exec.lift_apply, ABI.kArgument0ResultRegister]
  cases hpath : readPath s.1.memory (s.1.registers .R2) with
  | error e => exact ⟨rfl, nofun⟩
  | ok outcome =>
    cases outcome with
    | ok path => exact absurd hpath (h path)
    | error status =>
      refine ⟨rfl, fun result hresult => ⟨status, ?_, status_of_readPath hpath⟩⟩
      rw [← Except.ok.inj hresult]

/-! ## `FS_STAT` -/

/-- The type of a node as `FS_STAT` reports it. -/
def nodeTypeWord (type : ZeroFSNodeType) : Word :=
  if type = .File then ABI.kFilesystemNodeFile else ABI.kFilesystemNodeDirectory

/-- The state after the first output field of `FS_STAT` has been written. -/
def typeWritten (s : CPUState × ZeroFS) (request : Word) (stat : ZeroFSStat) : CPUState × ZeroFS :=
  ({ s.1 with
      memory := storeWord s.1.memory (request.toNat + ABI.kFilesystemStatTypeOffset)
        (nodeTypeWord stat.type) },
    s.2)

/-- Writing the type leaves the size of the memory alone. -/
theorem size_typeWritten {s : CPUState × ZeroFS} {request : Word} (stat : ZeroFSStat)
    (h : FieldFits s.1.memory request ABI.kFilesystemStatTypeOffset) :
    (typeWritten s request stat).1.memory.size = s.1.memory.size := by
  refine Memory.size_splice ?_
  rw [length_leBytes]
  exact h.size

/-- Writing the first field of `FS_STAT`. -/
theorem writeRequestI64_type {s : CPUState × ZeroFS} {request : Word} (stat : ZeroFSStat)
    (h : FieldFits s.1.memory request ABI.kFilesystemStatTypeOffset) :
    writeRequestI64 request ABI.kFilesystemStatTypeOffset (nodeTypeWord stat.type) s
      = (.ok true, typeWritten s request stat) := writeRequestI64_of_fits h _

/-- The state after a `FS_STAT` that returns OK. -/
def statReplied (s : CPUState × ZeroFS) (request : Word) (stat : ZeroFSStat) : CPUState × ZeroFS :=
  ({ s.1 with
      memory := storeWord (typeWritten s request stat).1.memory
        (request.toNat + ABI.kFilesystemStatSizeOffset) (Word.ofSize stat.size)
      registers := (s.1.registers.set .R2 (Word.ofSize stat.size)).set .R3 (nodeTypeWord stat.type) },
    s.2)

section Stat

variable {s : CPUState × ZeroFS} {request : Word} {path : Str} {stat : ZeroFSStat}
  (result : SoftwareInterruptResult)

/-- The call after the node has been found. -/
theorem filesystemStat_of_stat (h : s.2.stat path = .ok stat) (hsize : stat.size ≤ 2 ^ 63 - 1) :
    filesystemStat request path result s
      = (writeStat request (nodeTypeWord stat.type) (Word.ofSize stat.size) >>= fun written =>
          if !written then pure { result with status := some ABI.kStatusInvalidGuestMemory }
          else do
            putRegister ABI.kArgument0ResultRegister (Word.ofSize stat.size)
            putRegister ABI.kArgument1Register (nodeTypeWord stat.type)
            pure { result with result := some (Word.ofSize stat.size) }) s := by
  rw [filesystemStat]
  simp only [Exec.bind_apply, Exec.get_apply, zeroFs, Exec.lift_apply, h, Except.mapError]
  rw [if_neg (not_lt.mpr hsize)]
  rfl

/-- Both output fields fit. -/
theorem filesystemStat_replied (h : s.2.stat path = .ok stat) (hsize : stat.size ≤ 2 ^ 63 - 1)
    (htype : FieldFits s.1.memory request ABI.kFilesystemStatTypeOffset)
    (hsecond : FieldFits s.1.memory request ABI.kFilesystemStatSizeOffset) :
    filesystemStat request path result s
      = (.ok { result with result := some (Word.ofSize stat.size) }, statReplied s request stat) := by
  have hsizeKept := size_typeWritten stat htype
  have hfits : FieldFits (typeWritten s request stat).1.memory request ABI.kFilesystemStatSizeOffset :=
    { hsecond with size := by rw [hsizeKept]; exact hsecond.size }
  rw [filesystemStat_of_stat result h hsize, writeStat, bind_assoc,
    Exec.bind_of_ok (writeRequestI64_type stat htype)]
  simp only [Bool.not_true, Bool.false_eq_true, if_false]
  rw [Exec.bind_of_ok (writeRequestI64_of_fits hfits _)]
  rfl

/-- Only the first output field fits. -/
theorem filesystemStat_torn (h : s.2.stat path = .ok stat) (hsize : stat.size ≤ 2 ^ 63 - 1)
    (htype : FieldFits s.1.memory request ABI.kFilesystemStatTypeOffset)
    (hsecond : ¬ FieldFits s.1.memory request ABI.kFilesystemStatSizeOffset) :
    (filesystemStat request path result s).2 = typeWritten s request stat
      ∧ Refused (settled result (filesystemStat request path result s).1) := by
  have hsizeKept := size_typeWritten stat htype
  have hfits : ¬ FieldFits (typeWritten s request stat).1.memory request
      ABI.kFilesystemStatSizeOffset := fun hfits =>
    hsecond { hfits with size := by rw [← hsizeKept]; exact hfits.size }
  rw [filesystemStat_of_stat result h hsize, writeStat, bind_assoc,
    Exec.bind_of_ok (writeRequestI64_type stat htype)]
  simp only [Bool.not_true, Bool.false_eq_true, if_false]
  rcases writeRequestI64_of_not_fits hfits (Word.ofSize stat.size) with hwrite | hwrite
  · rw [Exec.bind_of_ok hwrite]
    exact ⟨rfl, refused_of_status (by decide)⟩
  · rw [Exec.bind_of_error hwrite]
    exact ⟨rfl, refused_fault result none⟩

/-- The first output field does not fit. -/
theorem filesystemStat_unwritten (h : s.2.stat path = .ok stat) (hsize : stat.size ≤ 2 ^ 63 - 1)
    (htype : ¬ FieldFits s.1.memory request ABI.kFilesystemStatTypeOffset) :
    (filesystemStat request path result s).2 = s
      ∧ Refused (settled result (filesystemStat request path result s).1) := by
  rw [filesystemStat_of_stat result h hsize, writeStat, bind_assoc]
  rcases writeRequestI64_of_not_fits htype (nodeTypeWord stat.type) with hwrite | hwrite
  · rw [Exec.bind_of_ok hwrite]
    exact ⟨rfl, refused_of_status (by decide)⟩
  · rw [Exec.bind_of_error hwrite]
    exact ⟨rfl, refused_fault result none⟩

/-- The node is not found, or its size is no guest word. -/
theorem filesystemStat_no_stat
    (h : ∀ stat, s.2.stat path = .ok stat → ¬ stat.size ≤ 2 ^ 63 - 1) :
    (filesystemStat request path result s).2 = s
      ∧ Refused (settled result (filesystemStat request path result s).1) := by
  rw [filesystemStat]
  simp only [Exec.bind_apply, Exec.get_apply, zeroFs, Exec.lift_apply]
  cases hstat : s.2.stat path with
  | error e => exact ⟨rfl, refused_fault result _⟩
  | ok stat =>
    simp only [Except.mapError]
    rw [if_pos (not_le.mp (h stat hstat))]
    exact ⟨rfl, refused_of_status (by decide)⟩

end Stat

/-! ## `FS_READ` and `FS_WRITE` -/

/-- The three fields of a transfer that the service carries out. -/
structure TransferRequest (memory : Memory) (request fileOffset buffer count : Word) : Prop where
  first : FieldFits memory request ABI.kFilesystemFileOffsetOffset
    ∧ fileOffset = fieldWord memory request ABI.kFilesystemFileOffsetOffset
  second : FieldFits memory request ABI.kFilesystemBufferPointerOffset
    ∧ buffer = fieldWord memory request ABI.kFilesystemBufferPointerOffset
  third : FieldFits memory request ABI.kFilesystemTransferCountOffset
    ∧ count = fieldWord memory request ABI.kFilesystemTransferCountOffset
  nonneg : 0 ≤ fileOffset.toInt ∧ 0 ≤ buffer.toInt ∧ 0 ≤ count.toInt
  window : buffer.toNat + count.toNat ≤ 512

/-- A transfer is read when its three fields fit. -/
theorem readTransfer_eq_ok {memory : Memory} {request fileOffset buffer count : Word}
    (h : readTransfer memory request = .ok (some (fileOffset, buffer, count))) :
    (FieldFits memory request ABI.kFilesystemFileOffsetOffset
        ∧ fileOffset = fieldWord memory request ABI.kFilesystemFileOffsetOffset)
      ∧ (FieldFits memory request ABI.kFilesystemBufferPointerOffset
        ∧ buffer = fieldWord memory request ABI.kFilesystemBufferPointerOffset)
      ∧ FieldFits memory request ABI.kFilesystemTransferCountOffset
        ∧ count = fieldWord memory request ABI.kFilesystemTransferCountOffset := by
  obtain ⟨first, hfirst, h⟩ := Library.bind_eq_ok.mp h
  cases first with
  | none => cases Except.ok.inj h
  | some first =>
    obtain ⟨second, hsecond, h⟩ := Library.bind_eq_ok.mp h
    cases second with
    | none => cases Except.ok.inj h
    | some second =>
      obtain ⟨third, hthird, h⟩ := Library.bind_eq_ok.mp h
      obtain ⟨word, rfl, heq⟩ := Option.map_eq_some_iff.mp (Except.ok.inj h)
      cases heq
      exact ⟨readRequestI64_eq_ok.mp hfirst, readRequestI64_eq_ok.mp hsecond,
        readRequestI64_eq_ok.mp hthird⟩

/-- The state after `FS_READ` has copied `data`. -/
def readReplied (s : CPUState × ZeroFS) (buffer : Word) (data : List UInt8) : CPUState × ZeroFS :=
  ({ s.1 with
      memory := s.1.memory.splice buffer.toNat data
      registers := s.1.registers.set .R2 (Word.ofSize data.length) },
    s.2)

/-- The state after `FS_WRITE` has changed the file system. -/
def writeReplied (s : CPUState × ZeroFS) (count : Word) (fs : ZeroFS) : CPUState × ZeroFS :=
  ({ s.1 with registers := s.1.registers.set .R2 count }, fs)

/-- What a transfer comes to. -/
inductive TransferOutcome (service request : Word) (path : Str) (result : SoftwareInterruptResult)
    (s : CPUState × ZeroFS) :
    Except FilesystemFault SoftwareInterruptResult × (CPUState × ZeroFS) → Prop where
  | refused (out : Except FilesystemFault SoftwareInterruptResult)
      (h : Refused (settled result out)) : TransferOutcome service request path result s (out, s)
  | read (fileOffset buffer count : Word) (data : List UInt8)
      (hservice : service = ABI.kFilesystemReadSyscall)
      (hrequest : TransferRequest s.1.memory request fileOffset buffer count)
      (hread : s.2.readFile path fileOffset.toNat count.toNat = .ok data)
      (hsize : buffer.toNat + data.length ≤ s.1.memory.size) :
      TransferOutcome service request path result s
        (.ok { result with result := some (Word.ofSize data.length) }, readReplied s buffer data)
  | write (fileOffset buffer count : Word) (fs : ZeroFS)
      (hservice : service ≠ ABI.kFilesystemReadSyscall)
      (hrequest : TransferRequest s.1.memory request fileOffset buffer count)
      (hsize : buffer.toNat + count.toNat ≤ s.1.memory.size)
      (hwrite : s.2.writeFile path fileOffset.toNat
        (s.1.memory.slice buffer.toNat count.toNat) = .ok fs) :
      TransferOutcome service request path result s
        (.ok { result with result := some count }, writeReplied s count fs)

section Transfer

variable {service request : Word} {path : Str} {result : SoftwareInterruptResult}
  {s : CPUState × ZeroFS} {fileOffset buffer count : Word}

/-- `FS_READ` transfers, or is refused and changes nothing. -/
theorem filesystemRead_cases (hservice : service = ABI.kFilesystemReadSyscall)
    (hrequest : TransferRequest s.1.memory request fileOffset buffer count) :
    TransferOutcome service request path result s
      (filesystemRead path fileOffset buffer count result s) := by
  simp only [filesystemRead, Exec.bind_apply, Exec.get_apply, zeroFs, guest, Exec.lift_apply]
  cases hread : s.2.readFile path fileOffset.toNat count.toNat with
  | error e => exact .refused _ (refused_fault result _)
  | ok data =>
    simp only [Except.mapError]
    cases hstore : s.1.memory.writeBytes buffer.toNat data with
    | error e => exact .refused _ (refused_fault result _)
    | ok memory =>
      obtain ⟨hsize, rfl⟩ := Memory.writeBytes_eq_ok.mp hstore
      exact .read fileOffset buffer count data hservice hrequest hread hsize

/-- `FS_WRITE` transfers, or is refused and changes nothing. -/
theorem filesystemWrite_cases (hservice : service ≠ ABI.kFilesystemReadSyscall)
    (hrequest : TransferRequest s.1.memory request fileOffset buffer count) :
    TransferOutcome service request path result s
      (filesystemWrite path fileOffset buffer count result s) := by
  simp only [filesystemWrite, Exec.bind_apply, Exec.get_apply, zeroFs, guest, Exec.lift_apply]
  cases hload : s.1.memory.readBytes buffer.toNat count.toNat with
  | error e => exact .refused _ (refused_fault result _)
  | ok data =>
    obtain ⟨hsize, rfl⟩ := Memory.readBytes_eq_ok.mp hload
    simp only [Except.mapError]
    cases hwrite : s.2.writeFile path fileOffset.toNat
        (s.1.memory.slice buffer.toNat count.toNat) with
    | error e => exact .refused _ (refused_fault result _)
    | ok fs => exact .write fileOffset buffer count fs hservice hrequest hsize hwrite

/-- A transfer is refused without a change, or it is one ZeroFS operation. -/
theorem filesystemTransfer_cases :
    TransferOutcome service request path result s
      (filesystemTransfer service request path result s) := by
  simp only [filesystemTransfer, Exec.bind_apply, Exec.get_apply, guest, Exec.lift_apply]
  cases htransfer : readTransfer s.1.memory request with
  | error e => exact .refused _ (refused_fault result _)
  | ok transfer =>
    cases transfer with
    | none => exact .refused _ (refused_of_status (by decide))
    | some fields =>
      obtain ⟨fileOffset, buffer, count⟩ := fields
      obtain ⟨hoffset, hbuffer, hcount⟩ := readTransfer_eq_ok htransfer
      simp only [Except.mapError]
      split_ifs with hsigns hrange hservice
      · exact .refused _ (refused_of_status (by decide))
      · exact .refused _ (refused_of_status (by decide))
      · obtain ⟨hnonneg, hwindow⟩ := validGuestRange_eq_true.mp (by simpa using hrange)
        exact filesystemRead_cases hservice
          ⟨hoffset, hbuffer, hcount, ⟨by omega, hnonneg⟩, hwindow⟩
      · obtain ⟨hnonneg, hwindow⟩ := validGuestRange_eq_true.mp (by simpa using hrange)
        exact filesystemWrite_cases hservice
          ⟨hoffset, hbuffer, hcount, ⟨by omega, hnonneg⟩, hwindow⟩

/-- The world of a call holds the tree of a file system. -/
def HoldsTree (s : CPUState × ZeroFS) : Prop := ZeroFS.Tree s.2

/-- Writing a field of the request leaves the file system alone. -/
theorem keeps_writeRequestI64 (requestAddress : Word) (fieldOffset : ℕ) (value : Word) :
    Keeps HoldsTree (writeRequestI64 requestAddress fieldOffset value) := by
  rw [writeRequestI64]
  cases requestField requestAddress fieldOffset with
  | none => exact .pure _
  | some address =>
    exact .bind .get fun _ => .bind (.lift _) fun _ => .bind (.modify fun _ h => h) fun _ => .pure _

/-- Writing the two fields of `FS_STAT` leaves the file system alone. -/
theorem keeps_writeStat (requestAddress type size : Word) :
    Keeps HoldsTree (writeStat requestAddress type size) := by
  refine .bind (keeps_writeRequestI64 _ _ _) fun written => ?_
  split_ifs
  · exact .pure _
  · exact keeps_writeRequestI64 _ _ _

/-- `FS_STAT` leaves the file system alone. -/
theorem keeps_filesystemStat (requestAddress : Word) (path : Str) (result : SoftwareInterruptResult) :
    Keeps HoldsTree (filesystemStat requestAddress path result) := by
  refine .bind .get fun _ => .bind (.lift _) fun stat => ?_
  by_cases hsize : stat.size > 2 ^ 63 - 1
  · rw [if_pos hsize]
    exact .pure _
  · rw [if_neg hsize]
    refine .bind (keeps_writeStat _ _ _) fun written => ?_
    cases written with
    | false => exact .pure _
    | true => exact .bind (.modify fun _ h => h) fun _ => .bind (.modify fun _ h => h) fun _ => .pure _

/-- A transfer is refused, reads, or is one write. -/
theorem keeps_filesystemTransfer (serviceNumber requestAddress : Word) (path : Str)
    (result : SoftwareInterruptResult) :
    Keeps HoldsTree (filesystemTransfer serviceNumber requestAddress path result) := by
  intro s h
  have houtcome := @filesystemTransfer_cases serviceNumber requestAddress path result s
  generalize filesystemTransfer serviceNumber requestAddress path result s = out at houtcome ⊢
  cases houtcome with
  | refused _ _ => exact h
  | read _ _ _ _ _ _ _ _ => exact h
  | write _ _ _ fs _ _ _ hwrite => exact ZeroFSCall.tree_writeFile h hwrite

/-- A file call keeps the tree of the file system, whatever it comes to. -/
theorem keeps_filesystemService (serviceNumber : Word) :
    Keeps HoldsTree (filesystemService serviceNumber) := by
  refine .bind (.gets _) fun requestAddress => .bind .get fun _ => .bind (.lift _) fun path => ?_
  cases path with
  | error status => exact .pure _
  | ok path =>
    refine .bind (.attempt ?_) fun outcome => ?_
    · rw [filesystemCall]
      split_ifs
      · exact keeps_filesystemStat _ _ _
      · exact keeps_filesystemTransfer _ _ _ _
    · cases outcome with
      | ok result => exact .pure _
      | error fault => exact .pure _

end Transfer

/-! ## Failing calls -/

/-- Storing a word changes the memory exactly when another word was there. -/
theorem storeWord_eq_self_iff {memory : Memory} {address : ℕ} (h : address + 8 ≤ memory.size)
    (value : Word) : storeWord memory address value = memory
      ↔ leWord 64 (memory.slice address 8) = value := by
  have hfit : address + (leBytes 8 value).length ≤ memory.size := by rwa [length_leBytes]
  have hstored : (storeWord memory address value).slice address 8 = leBytes 8 value := by
    have hself := Memory.slice_splice_self hfit
    rwa [length_leBytes] at hself
  constructor
  · intro heq
    rw [← heq, hstored]
    exact @leWord_leBytes 8 value
  · rintro rfl
    have hslice : leBytes 8 (leWord 64 (memory.slice address 8)) = memory.slice address 8 := by
      have hbytes := leBytes_leWord (memory.slice address 8)
      rwa [Memory.length_slice h] at hbytes
    rw [hslice] at hstored
    refine Memory.ext_byteAt (Memory.size_splice hfit) fun i _ => ?_
    by_cases hi : address ≤ i ∧ i < address + 8
    · rw [storeWord, Memory.byteAt_splice hfit, hslice, if_pos (by rw [Memory.length_slice h]; exact hi),
        List.getD_eq_getElem?_getD, Memory.getElem?_slice h (by omega), Option.getD_some]
      congr 1
      omega
    · exact Memory.byteAt_splice_of_notMem hfit (by rw [length_leBytes]; omega)

/-- The request block of a `FS_STAT` ends behind its type field, the path names a node, and the type
is not there already. -/
def StatTorn (s : CPUState × ZeroFS) : Prop :=
  let request := s.1.registers .R2
  request.toNat + 24 ≤ min 512 s.1.memory.size ∧ min 512 s.1.memory.size < request.toNat + 32
    ∧ ∃ path stat, readPath s.1.memory request = .ok (.ok path) ∧ s.2.stat path = .ok stat
      ∧ stat.size ≤ 2 ^ 63 - 1 ∧ fieldWord s.1.memory request 16 ≠ nodeTypeWord stat.type

section Failing

variable {service : Word} {s : CPUState × ZeroFS}

/-- In a block that starts with a path the second output field alone may be missing. -/
theorem fieldFits_stat {memory : Memory} {request : Word} {path : Str}
    (h : NamedPath memory request path) :
    (FieldFits memory request ABI.kFilesystemStatTypeOffset
        ↔ request.toNat + 24 ≤ min 512 memory.size)
      ∧ (FieldFits memory request ABI.kFilesystemStatSizeOffset
        ↔ request.toNat + 32 ≤ min 512 memory.size) := by
  have haligned : (request.toNat + 0) % 8 = 0 := h.pointer.aligned
  have hfits : ∀ offset, offset % 8 = 0 →
      (FieldFits memory request offset ↔ request.toNat + (offset + 8) ≤ min 512 memory.size) := by
    intro offset hoffset
    rw [le_min_iff]
    constructor
    · intro hfit
      exact ⟨by rw [← Nat.add_assoc]; exact hfit.window, by rw [← Nat.add_assoc]; exact hfit.size⟩
    · rintro ⟨hwindow, hsize⟩
      exact ⟨h.pointer.nonneg, by omega, by omega, by omega⟩
  exact ⟨hfits 16 rfl, hfits 24 rfl⟩

/-- A `FS_STAT` of a block that ends too early. -/
theorem filesystemService_torn (h : StatTorn s) :
    ∃ result s', filesystemService ABI.kFilesystemStatSyscall s = (.ok result, s')
      ∧ Refused result ∧ s' ≠ s := by
  obtain ⟨htype, hsecond, path, stat, hpath, hstat, hsize, hword⟩ := h
  have hfits := fieldFits_stat (namedPath_of_readPath hpath)
  have hfirst := hfits.1.mpr htype
  obtain ⟨hstate, hrefused⟩ := filesystemStat_torn (requestResult (s.1.registers .R2)) hstat hsize
    hfirst fun hfit => absurd (hfits.2.mp hfit) (by omega)
  rw [filesystemService_of_path hpath, filesystemCall, if_pos rfl]
  refine ⟨_, _, rfl, hrefused, ?_⟩
  rw [hstate]
  intro heq
  have hmemory : (typeWritten s (s.1.registers .R2) stat).1.memory = s.1.memory := by rw [heq]
  exact hword ((storeWord_eq_self_iff hfirst.size _).mp hmemory)

/-- Every other call that fails has changed nothing. -/
theorem filesystemService_unchanged (h : ¬ (service = ABI.kFilesystemStatSyscall ∧ StatTorn s))
    {result : SoftwareInterruptResult} {s' : CPUState × ZeroFS}
    (hrun : filesystemService service s = (.ok result, s'))
    (hstatus : result.status ≠ some ABI.kStatusOk) : s' = s := by
  by_cases hnamed : ∃ path, readPath s.1.memory (s.1.registers .R2) = .ok (.ok path)
  · obtain ⟨path, hpath⟩ := hnamed
    rw [filesystemService_of_path hpath] at hrun
    obtain ⟨hresult, rfl⟩ := Prod.mk.inj hrun
    obtain rfl := Except.ok.inj hresult
    rw [filesystemCall] at hstatus ⊢
    split_ifs at hstatus ⊢ with hservice
    · -- `FS_STAT`
      by_cases hstat : ∃ stat, s.2.stat path = .ok stat ∧ stat.size ≤ 2 ^ 63 - 1
      · obtain ⟨stat, hstat, hsize⟩ := hstat
        obtain ⟨hfirst, hsecond⟩ := fieldFits_stat (namedPath_of_readPath hpath)
        by_cases htype : FieldFits s.1.memory (s.1.registers .R2) ABI.kFilesystemStatTypeOffset
        · by_cases hfits : FieldFits s.1.memory (s.1.registers .R2) ABI.kFilesystemStatSizeOffset
          · rw [filesystemStat_replied _ hstat hsize htype hfits] at hstatus
            exact absurd rfl hstatus
          · have hword : fieldWord s.1.memory (s.1.registers .R2) 16 = nodeTypeWord stat.type := by
              by_contra hword
              refine h ⟨hservice, hfirst.mp htype, ?_, path, stat, hpath, hstat, hsize, hword⟩
              exact Nat.lt_of_not_le fun hle => hfits (hsecond.mpr hle)
            rw [(filesystemStat_torn _ hstat hsize htype hfits).1, typeWritten,
              (storeWord_eq_self_iff htype.size _).mpr hword]
        · exact (filesystemStat_unwritten _ hstat hsize htype).1
      · exact (filesystemStat_no_stat _ fun stat hfound hsize => hstat ⟨stat, hfound, hsize⟩).1
    · -- A transfer that succeeds reports OK.
      have houtcome := @filesystemTransfer_cases service (s.1.registers .R2) path
        (requestResult (s.1.registers .R2)) s
      generalize filesystemTransfer service (s.1.registers .R2) path _ s = out at houtcome hstatus ⊢
      cases houtcome with
      | refused out hrefused => rfl
      | read fileOffset buffer count data _ _ _ _ => exact absurd rfl hstatus
      | write fileOffset buffer count fs _ _ _ _ => exact absurd rfl hstatus
  · have hnone := @filesystemService_of_no_path service s fun path hpath => hnamed ⟨path, hpath⟩
    rw [hrun] at hnone
    exact hnone.1

end Failing

/-- A call that fails leaves registers, guest memory and files as they were, exactly when it is no
`FS_STAT` whose request block ends behind the type field. -/
theorem filesystem_fails_atomically_iff (service : Word) (s : CPUState × ZeroFS) :
    (∀ result s', filesystemService service s = (.ok result, s') →
        result.status ≠ some ABI.kStatusOk → s' = s)
      ↔ ¬ (service = ABI.kFilesystemStatSyscall ∧ StatTorn s) := by
  constructor
  · rintro hatomic ⟨rfl, htorn⟩
    obtain ⟨result, s', hrun, ⟨status, hstatus, hne⟩, hchanged⟩ := filesystemService_torn htorn
    refine hchanged (hatomic result s' hrun ?_)
    rw [hstatus]
    exact fun heq => hne (Option.some.inj heq)
  · intro h result s' hrun hstatus
    exact filesystemService_unchanged h hrun hstatus

/-- A request block at the end of the window: the path `/bin`, and one output field. -/
def statAtWindowEnd : CPUState :=
  { CPUState.initial with
    memory := ((Memory.ofSize kDefaultMemorySize).splice 0 "/bin").splice 496 (leBytes 8 (4 : Word))
    registers := CPUState.initial.registers.set .R2 488
    privilegeLevel := .user }

/-- `FS_STAT` reports the block as invalid after it has written the type into it. -/
theorem filesystemStat_not_atomic :
    ∃ fs, ZeroFS.new = .ok fs
      ∧ ¬ ∀ result s',
        filesystemService ABI.kFilesystemStatSyscall (statAtWindowEnd, fs) = (.ok result, s') →
        result.status ≠ some ABI.kStatusOk → s' = (statAtWindowEnd, fs) := by
  have hbin : (ZeroFS.new >>= fun fs => fs.stat "/bin").map
      (fun stat : ZeroFSStat => (stat.type, stat.size)) = .ok (.Directory, 0) := by decide +kernel
  obtain ⟨fs, hfresh⟩ := ZeroFSCall.exists_new
  refine ⟨fs, hfresh, fun hatomic => ?_⟩
  rw [hfresh, ok_bind] at hbin
  cases hstat : fs.stat "/bin" with
  | error e =>
    rw [hstat] at hbin
    cases hbin
  | ok stat =>
    rw [hstat] at hbin
    obtain ⟨htype, hsize⟩ := Prod.mk.inj (Except.ok.inj hbin)
    have hpath : readPath statAtWindowEnd.memory 488 = .ok (.ok "/bin") := by decide +kernel
    have hword : fieldWord statAtWindowEnd.memory 488 16 = 0 := by decide +kernel
    have hlength : statAtWindowEnd.memory.size = 4096 := by decide +kernel
    have htorn : StatTorn (statAtWindowEnd, fs) := by
      show 488 + 24 ≤ min 512 statAtWindowEnd.memory.size
        ∧ min 512 statAtWindowEnd.memory.size < 488 + 32 ∧ _
      rw [hlength]
      refine ⟨by decide, by decide, "/bin", stat, hpath, hstat, by omega, ?_⟩
      rw [htype]
      exact fun heq => absurd (hword.symm.trans heq) (by decide)
    obtain ⟨result, s', hrun, ⟨status, hstatus, hne⟩, hchanged⟩ := filesystemService_torn htorn
    refine hchanged (hatomic result s' hrun ?_)
    rw [hstatus]
    exact fun heq => hne (Option.some.inj heq)

end ZeroCpu.Kernel
