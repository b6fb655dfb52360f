import ZeroCpu.Kernel.FilesystemCalls

/-!
# File system calls refine the file system

Reference: `ProtectedFilesystemService::handle` in `src/kernel/ProtectedFilesystemService.cpp`.

A call that returns OK is one ZeroFS operation on the path that the request names, between the
guest's buffer and the file system. Nothing outside the User data window takes part in any call: two
runs from guests that agree on the window cannot be told apart.
-/

namespace ZeroCpu.Kernel

open Library Exec MemoryMap Sys

/-! ## What is written -/

/-- `data` has been copied to `address`, and no other byte has changed. -/
structure Copied (memory memory' : Memory) (address : ℕ) (data : List UInt8) : Prop where
  window : address + data.length ≤ 512
  size : memory'.size = memory.size
  byteAt : ∀ i, memory'.byteAt i
    = if address ≤ i ∧ i < address + data.length then data.getD (i - address) 0 else memory.byteAt i

/-- Data that is spliced in is copied. -/
theorem copied_splice {memory : Memory} {address : ℕ} {data : List UInt8}
    (hwindow : address + data.length ≤ 512) (hsize : address + data.length ≤ memory.size) :
    Copied memory (memory.splice address data) address data :=
  ⟨hwindow, Memory.size_splice hsize, Memory.byteAt_splice hsize⟩

/-- A size that the service reports is the word's value. -/
theorem toInt_ofSize {size : ℕ} (h : size ≤ 2 ^ 63 - 1) : (Word.ofSize size).toInt = size := by
  have hvalue : (Word.ofSize size).toNat = size := by
    rw [Word.ofSize, BitVec.toNat_ofNat]
    omega
  rw [BitVec.toInt_eq_toNat_of_lt (by omega), hvalue]

/-- `FS_STAT`: type and size of the node, in the request block and in R3 and R2. -/
structure StatRefines (path : Str) (s s' : CPUState × ZeroFS) : Prop where
  stat : ∃ stat, s.2.stat path = .ok stat ∧ (Word.ofSize stat.size).toInt = stat.size
    ∧ Copied s.1.memory s'.1.memory ((s.1.registers .R2).toNat + 16)
        (leBytes 8 (nodeTypeWord stat.type) ++ leBytes 8 (Word.ofSize stat.size))
    ∧ s'.1.registers
        = (s.1.registers.set .R2 (Word.ofSize stat.size)).set .R3 (nodeTypeWord stat.type)
  files : s'.2 = s.2
  rest : s'.1 = { s.1 with memory := s'.1.memory, registers := s'.1.registers }

/-- `FS_READ`: the bytes of the file, at the start of the buffer, and their number in R2. -/
structure ReadRefines (path : Str) (s s' : CPUState × ZeroFS) : Prop where
  read : ∃ fileOffset buffer count data,
    TransferRequest s.1.memory (s.1.registers .R2) fileOffset buffer count
    ∧ s.2.readFile path fileOffset.toNat count.toNat = .ok data ∧ data.length ≤ count.toNat
    ∧ Copied s.1.memory s'.1.memory buffer.toNat data
    ∧ (Word.ofSize data.length).toInt = data.length
    ∧ s'.1.registers = s.1.registers.set .R2 (Word.ofSize data.length)
  files : s'.2 = s.2
  rest : s'.1 = { s.1 with memory := s'.1.memory, registers := s'.1.registers }

/-- `FS_WRITE`: the file changes as `writeFile` says, and R2 is the count. -/
structure WriteRefines (path : Str) (s s' : CPUState × ZeroFS) : Prop where
  write : ∃ fileOffset buffer count,
    TransferRequest s.1.memory (s.1.registers .R2) fileOffset buffer count
    ∧ s.2.writeFile path fileOffset.toNat (s.1.memory.slice buffer.toNat count.toNat) = .ok s'.2
    ∧ (s.1.memory.slice buffer.toNat count.toNat).length = count.toNat
    ∧ s'.1.registers = s.1.registers.set .R2 count
  rest : s'.1 = { s.1 with registers := s'.1.registers }

section Refines

variable {service : Word} {s : CPUState × ZeroFS} {path : Str}

/-- Two words that are stored one behind the other. -/
theorem copied_storeWord_storeWord {memory : Memory} {address : ℕ} (first second : Word)
    (hwindow : address + 16 ≤ 512) (hsize : address + 16 ≤ memory.size) :
    Copied memory (storeWord (storeWord memory address first) (address + 8) second) address
      (leBytes 8 first ++ leBytes 8 second) := by
  have hfirst : address + (leBytes 8 first).length ≤ memory.size := by
    rw [length_leBytes]
    omega
  have hsecond : address + 8 + (leBytes 8 second).length ≤ (storeWord memory address first).size := by
    rw [storeWord, Memory.size_splice hfirst, length_leBytes]
    omega
  have hlength : (leBytes 8 first ++ leBytes 8 second).length = 16 := by
    rw [List.length_append, length_leBytes, length_leBytes]
  refine ⟨by omega, ?_, fun i => ?_⟩
  · rw [storeWord, Memory.size_splice hsecond, storeWord, Memory.size_splice hfirst]
  · rw [storeWord, Memory.byteAt_splice hsecond, storeWord, Memory.byteAt_splice hfirst, hlength,
      length_leBytes, length_leBytes]
    by_cases hlow : address ≤ i ∧ i < address + 8
    · rw [if_neg (by omega), if_pos hlow, if_pos (by omega),
        List.getD_append _ _ _ _ (by rw [length_leBytes]; omega)]
    · by_cases hhigh : address + 8 ≤ i ∧ i < address + 8 + 8
      · rw [if_pos hhigh, if_pos (by omega),
          List.getD_append_right _ _ _ _ (by rw [length_leBytes]; omega), length_leBytes,
          Nat.sub_sub]
      · rw [if_neg hhigh, if_neg hlow, if_neg (by omega)]

/-- A `FS_STAT` that returns OK. -/
theorem filesystemStat_refines {result returned : SoftwareInterruptResult}
    {s' : CPUState × ZeroFS} (hnamed : NamedPath s.1.memory (s.1.registers .R2) path)
    (hrun : filesystemStat (s.1.registers .R2) path result s = (.ok returned, s'))
    (hok : ¬ Refused returned) : StatRefines path s s' := by
  by_cases hstat : ∃ stat, s.2.stat path = .ok stat ∧ stat.size ≤ 2 ^ 63 - 1
  · obtain ⟨stat, hstat, hsize⟩ := hstat
    by_cases htype : FieldFits s.1.memory (s.1.registers .R2) ABI.kFilesystemStatTypeOffset
    · by_cases hfits : FieldFits s.1.memory (s.1.registers .R2) ABI.kFilesystemStatSizeOffset
      · rw [filesystemStat_replied _ hstat hsize htype hfits] at hrun
        obtain ⟨-, rfl⟩ := Prod.mk.inj hrun
        have hend := (fieldFits_stat hnamed).2.mp hfits
        exact ⟨⟨stat, hstat, toInt_ofSize hsize,
          copied_storeWord_storeWord _ _ (by omega) (by omega), rfl⟩, rfl, rfl⟩
      · have htorn := (filesystemStat_torn result hstat hsize htype hfits).2
        rw [hrun] at htorn
        exact absurd htorn hok
    · have hunwritten := (filesystemStat_unwritten result hstat hsize htype).2
      rw [hrun] at hunwritten
      exact absurd hunwritten hok
  · have hnone := (@filesystemStat_no_stat s (s.1.registers .R2) path result
      fun stat hfound hsize => hstat ⟨stat, hfound, hsize⟩).2
    rw [hrun] at hnone
    exact absurd hnone hok

/-- A transfer that returns OK. -/
theorem filesystemTransfer_refines {result returned : SoftwareInterruptResult}
    {s' : CPUState × ZeroFS}
    (hrun : filesystemTransfer service (s.1.registers .R2) path result s = (.ok returned, s'))
    (hok : ¬ Refused returned) :
    (service = ABI.kFilesystemReadSyscall ∧ ReadRefines path s s')
      ∨ service ≠ ABI.kFilesystemReadSyscall ∧ WriteRefines path s s' := by
  have houtcome := @filesystemTransfer_cases service (s.1.registers .R2) path result s
  rw [hrun] at houtcome
  cases houtcome with
  | refused _ hrefused => exact absurd hrefused hok
  | read fileOffset buffer count data hservice hrequest hread hsize =>
    have hwindow := hrequest.window
    have hlength := readFile_length (by rw [ZeroFS.kReadToEnd, Binary.sizeMax]; omega) hread
    exact .inl ⟨hservice, ⟨fileOffset, buffer, count, data, hrequest, hread, hlength,
      copied_splice (by omega) hsize, toInt_ofSize (by omega), rfl⟩, rfl, rfl⟩
  | write fileOffset buffer count fs hservice hrequest hsize hwrite =>
    exact .inr ⟨hservice, ⟨fileOffset, buffer, count, hrequest, hwrite,
      Memory.length_slice hsize, rfl⟩, rfl⟩

end Refines

/-! ## What is read -/

/-- Two guests that a call cannot tell apart: they agree on the User data window and on everything
but memory. -/
structure SameView (s t : CPUState × ZeroFS) : Prop where
  size : t.1.memory.size = s.1.memory.size
  window : ∀ i, i < 512 → t.1.memory.byteAt i = s.1.memory.byteAt i
  rest : t = ({ s.1 with memory := t.1.memory }, s.2)

/-- Two outcomes that cannot be told apart. -/
def SameOutcome {ε α : Type} (out out' : Except ε α × (CPUState × ZeroFS)) : Prop :=
  out'.1 = out.1 ∧ SameView out.2 out'.2

/-- The computation looks at nothing outside the window. -/
def Blind {ε α : Type} (m : Exec ε (CPUState × ZeroFS) α) : Prop :=
  ∀ s t, SameView s t → SameOutcome (m s) (m t)

section Blind

variable {ε ε' α β : Type}

theorem Blind.pure (a : α) : Blind (pure a : Exec ε _ α) := fun _ _ h => ⟨rfl, h⟩

theorem Blind.lift (r : Except ε α) : Blind (Exec.lift r) := fun _ _ h => ⟨rfl, h⟩

/-- Two blind parts are blind together. -/
theorem Blind.bind {m : Exec ε (CPUState × ZeroFS) α} {f : α → Exec ε (CPUState × ZeroFS) β}
    (hm : Blind m) (hf : ∀ a, Blind (f a)) : Blind (m >>= f) := by
  intro s t h
  obtain ⟨hout, hview⟩ := hm s t h
  rw [Exec.bind_apply, Exec.bind_apply]
  generalize m s = out at hout hview ⊢
  generalize m t = out' at hout hview ⊢
  rcases out with ⟨e | a, s'⟩ <;> rcases out' with ⟨e' | a', t'⟩
  · exact ⟨congrArg Except.error (Except.error.inj hout), hview⟩
  · cases hout
  · cases hout
  · obtain rfl := Except.ok.inj hout
    exact hf a' s' t' hview

/-- A computation from the state may differ on the two guests if its outcomes do not. -/
theorem Blind.get_bind {f : CPUState × ZeroFS → Exec ε (CPUState × ZeroFS) β}
    (h : ∀ s t fs, SameView (s, fs) (t, fs) →
      SameOutcome (f (s, fs) (s, fs)) (f (t, fs) (t, fs))) : Blind (Exec.get >>= f) := by
  rintro ⟨s, fs⟩ ⟨t, fs'⟩ hview
  obtain ⟨-, rfl⟩ := Prod.mk.inj hview.rest
  exact h s t fs' hview

/-- A choice between blind parts is blind. -/
theorem Blind.ite {c : Prop} [Decidable c] {m n : Exec ε (CPUState × ZeroFS) α} (hm : c → Blind m)
    (hn : ¬ c → Blind n) : Blind (if c then m else n) := by
  split_ifs with hc
  · exact hm hc
  · exact hn hc

theorem Blind.attempt {m : Exec ε (CPUState × ZeroFS) α} (h : Blind m) :
    Blind (Exec.attempt m : Exec ε' _ _) := fun s t hview =>
  ⟨congrArg Except.ok (h s t hview).1, (h s t hview).2⟩

/-- Setting a register is blind. -/
theorem Blind.putRegister (reg : RegisterName) (value : Word) :
    Blind (putRegister reg value : Exec ε _ Unit) := by
  rintro ⟨s, fs⟩ ⟨t, fs'⟩ ⟨hsize, hwindow, hrest⟩
  obtain ⟨hstate, rfl⟩ := Prod.mk.inj hrest
  refine ⟨rfl, hsize, hwindow, ?_⟩
  rw [hstate]
  rfl

end Blind

section Views

variable {s t : CPUState × ZeroFS}

theorem SameView.registers (h : SameView s t) : t.1.registers = s.1.registers := by
  rw [h.rest]

theorem SameView.files (h : SameView s t) : t.2 = s.2 := by
  rw [h.rest]

/-- A slice of the window. -/
theorem SameView.slice (h : SameView s t) {address count : ℕ} (hwindow : address + count ≤ 512)
    (hsize : address + count ≤ s.1.memory.size) :
    t.1.memory.slice address count = s.1.memory.slice address count :=
  Memory.slice_congr (by rw [h.size]; exact hsize) hsize fun i _ hi => h.window i (by omega)

/-- The same view has the same bytes in the window. -/
theorem SameView.readBytes (h : SameView s t) {address count : ℕ} (hwindow : address + count ≤ 512) :
    t.1.memory.readBytes address count = s.1.memory.readBytes address count := by
  rw [Memory.readBytes, Memory.readBytes, Memory.checkRange_congr h.size]
  cases hrange : s.1.memory.checkRange address count with
  | error e => rfl
  | ok u => rw [ok_bind, ok_bind, h.slice hwindow (Memory.checkRange_eq_ok.mp hrange)]

/-- The same view has the same words in the request block. -/
theorem SameView.readRequestI64 (h : SameView s t) (request : Word) (offset : ℕ) :
    readRequestI64 t.1.memory request offset = readRequestI64 s.1.memory request offset := by
  rw [Kernel.readRequestI64, Kernel.readRequestI64]
  cases hfield : requestField request offset with
  | none => rfl
  | some address =>
    have hwindow := requestField_eq_some hfield
    simp only [Memory.read, Memory.readU64, Memory.checkRange_congr h.size]
    cases hrange : s.1.memory.checkRange address 8 with
    | error e => rfl
    | ok u => rw [ok_bind, ok_bind, h.slice hwindow (Memory.checkRange_eq_ok.mp hrange)]

/-- The same view has the same path. -/
theorem SameView.readPath (h : SameView s t) (request : Word) :
    readPath t.1.memory request = readPath s.1.memory request := by
  rw [Kernel.readPath, Kernel.readPath, h.readRequestI64]
  refine congrArg _ (funext fun pointer => ?_)
  cases pointer with
  | none => rfl
  | some pointer =>
    simp only [h.readRequestI64]
    refine congrArg _ (funext fun length => ?_)
    cases length with
    | none => rfl
    | some length =>
      dsimp only
      split_ifs with hbounds hrange
      · rfl
      · rfl
      · rw [h.readBytes (validGuestRange_eq_true.mp (by simpa using hrange)).2]

theorem SameView.readTransfer (h : SameView s t) (request : Word) :
    readTransfer t.1.memory request = readTransfer s.1.memory request := by
  simp only [Kernel.readTransfer, h.readRequestI64]

/-- The same bytes are copied to the same place. -/
theorem SameView.splice (h : SameView s t) {address : ℕ} {values : List UInt8}
    (hsize : address + values.length ≤ s.1.memory.size) :
    SameView ({ s.1 with memory := s.1.memory.splice address values }, s.2)
      ({ t.1 with memory := t.1.memory.splice address values }, t.2) := by
  have hsize' : address + values.length ≤ t.1.memory.size := by rwa [h.size]
  refine ⟨?_, fun i hi => ?_, ?_⟩
  · exact (Memory.size_splice hsize').trans (h.size.trans (Memory.size_splice hsize).symm)
  · show (t.1.memory.splice address values).byteAt i = (s.1.memory.splice address values).byteAt i
    rw [Memory.byteAt_splice hsize, Memory.byteAt_splice hsize', h.window i hi]
  · rw [h.rest]

end Views

section Calls

variable (request : Word) (path : Str) (result : SoftwareInterruptResult)

/-- Writing a word of the request block is blind. -/
theorem blind_writeRequestI64 (offset : ℕ) (value : Word) :
    Blind (writeRequestI64 request offset value) := by
  intro s t h
  have hfits : FieldFits t.1.memory request offset ↔ FieldFits s.1.memory request offset :=
    ⟨fun hfit => { hfit with size := h.size ▸ hfit.size },
      fun hfit => { hfit with size := h.size.symm ▸ hfit.size }⟩
  by_cases hfit : FieldFits s.1.memory request offset
  · rw [writeRequestI64_of_fits hfit, writeRequestI64_of_fits (hfits.mpr hfit)]
    exact ⟨rfl, h.splice (by rw [length_leBytes]; exact hfit.size)⟩
  · rw [writeRequestI64]
    cases hfield : requestField request offset with
    | none => exact ⟨rfl, h⟩
    | some address =>
      simp only [Exec.bind_apply, Exec.get_apply, guest, Exec.lift_apply, Memory.write,
        Memory.writeU64, Memory.checkRange_congr h.size]
      cases hrange : s.1.memory.checkRange address 8 with
      | error e => exact ⟨rfl, h⟩
      | ok u =>
        refine ⟨rfl, h.splice ?_⟩
        rw [Endianness.length_bytes]
        exact Memory.checkRange_eq_ok.mp hrange

/-- `FS_STAT` is blind. -/
theorem blind_filesystemStat : Blind (filesystemStat request path result) := by
  refine Blind.get_bind fun s t fs => ?_
  refine (Blind.lift _).bind (fun stat => ?_) (s, fs) (t, fs)
  refine Blind.ite (fun _ => .pure _) fun _ => ?_
  refine Blind.bind ?_ fun written => ?_
  · refine (blind_writeRequestI64 _ _ _).bind fun written => ?_
    exact Blind.ite (fun _ => .pure _) fun _ => blind_writeRequestI64 _ _ _
  · refine Blind.ite (fun _ => .pure _) fun _ => ?_
    exact (Blind.putRegister _ _).bind fun _ => (Blind.putRegister _ _).bind fun _ => .pure _

/-- `FS_READ` is blind. -/
theorem blind_filesystemRead (fileOffset buffer count : Word) :
    Blind (filesystemRead path fileOffset buffer count result) := by
  refine Blind.get_bind fun s t fs h => ?_
  simp only [Exec.bind_apply, zeroFs, guest, Exec.lift_apply]
  cases fs.readFile path fileOffset.toNat count.toNat with
  | error e => exact ⟨rfl, h⟩
  | ok data =>
    simp only [Except.mapError, Memory.writeBytes, Memory.checkRange_congr h.size]
    cases hrange : s.memory.checkRange buffer.toNat data.length with
    | error e => exact ⟨rfl, h⟩
    | ok u =>
      have hspliced := h.splice (Memory.checkRange_eq_ok.mp hrange)
      have hregister := Blind.putRegister (ε := FilesystemFault) .R2 (Word.ofSize data.length)
      exact ⟨rfl, (hregister _ _ hspliced).2⟩

/-- `FS_WRITE` from a buffer inside the window is blind. -/
theorem blind_filesystemWrite {buffer count : Word} (hwindow : buffer.toNat + count.toNat ≤ 512)
    (fileOffset : Word) : Blind (filesystemWrite path fileOffset buffer count result) := by
  refine Blind.get_bind fun s t fs h => ?_
  simp only [h.readBytes hwindow]
  refine (Blind.lift _).bind (fun data => (Blind.lift _).bind fun fs => ?_) (s, fs) (t, fs) h
  refine Blind.bind ?_ fun _ => (Blind.putRegister _ _).bind fun _ => .pure _
  rintro ⟨s, fs₁⟩ ⟨t, fs₂⟩ h
  obtain ⟨hstate, -⟩ := Prod.mk.inj h.rest
  exact ⟨rfl, h.size, h.window, Prod.ext hstate rfl⟩

/-- A transfer is blind. -/
theorem blind_filesystemTransfer (service : Word) :
    Blind (filesystemTransfer service request path result) := by
  refine Blind.get_bind fun s t fs h => ?_
  simp only [h.readTransfer request]
  refine (Blind.lift _).bind (fun transfer => ?_) (s, fs) (t, fs) h
  cases transfer with
  | none => exact .pure _
  | some fields =>
    obtain ⟨fileOffset, buffer, count⟩ := fields
    refine Blind.ite (fun _ => .pure _) fun _ => Blind.ite (fun _ => .pure _) fun hrange => ?_
    refine Blind.ite (fun _ => blind_filesystemRead _ _ _ _ _) fun _ => ?_
    exact blind_filesystemWrite _ _ (validGuestRange_eq_true.mp (by simpa using hrange)).2 _

/-- No call looks outside the window. -/
theorem blind_filesystemService (service : Word) : Blind (filesystemService service) := by
  intro s t h
  obtain ⟨s, fs⟩ := s
  obtain ⟨t, fs'⟩ := t
  obtain ⟨-, rfl⟩ := Prod.mk.inj h.rest
  have hregisters : t.registers = s.registers := h.registers
  simp only [filesystemService, getRegister, Exec.bind_apply, Exec.gets_apply, Exec.get_apply,
    Exec.lift_apply, hregisters, h.readPath]
  cases readPath s.memory (s.registers ABI.kArgument0ResultRegister) with
  | error e => exact ⟨rfl, h⟩
  | ok outcome =>
    cases outcome with
    | error status => exact ⟨rfl, h⟩
    | ok path =>
      refine (Blind.attempt ?_).bind (fun outcome => ?_) (s, fs') (t, fs') h
      · exact Blind.ite (fun _ => blind_filesystemStat _ _ _) fun _ => blind_filesystemTransfer _ _ _ _
      · cases outcome with
        | error fault => exact .pure _
        | ok returned => exact .pure _

end Calls

/-! ## Refinement -/

/-- Every call that returns OK is one operation of the file system on the named path; no call changes
a byte outside the User data window, and no call can tell apart two guests that agree on it. -/
theorem filesystem_calls_refine (service : Word)
    (hservice : service = ABI.kFilesystemStatSyscall ∨ service = ABI.kFilesystemReadSyscall
      ∨ service = ABI.kFilesystemWriteSyscall) (s : CPUState × ZeroFS) :
    (∀ result s', filesystemService service s = (.ok result, s') →
        result.status = some ABI.kStatusOk →
        ∃ path, NamedPath s.1.memory (s.1.registers .R2) path
          ∧ ((service = ABI.kFilesystemStatSyscall ∧ StatRefines path s s')
            ∨ (service = ABI.kFilesystemReadSyscall ∧ ReadRefines path s s')
            ∨ service = ABI.kFilesystemWriteSyscall ∧ WriteRefines path s s'))
      ∧ (∀ i, 512 ≤ i →
        (filesystemService service s).2.1.memory.byteAt i = s.1.memory.byteAt i)
      ∧ ∀ t, SameView s t →
        SameOutcome (filesystemService service s) (filesystemService service t) := by
  refine ⟨fun result s' hrun hok => ?_, ?_, fun t h => blind_filesystemService service s t h⟩
  -- A call that succeeded was not refused, so its request named a path.
  · have haccepted : ¬ Refused result := by
      rintro ⟨status, hstatus, hne⟩
      exact hne (Option.some.inj (hstatus.symm.trans hok))
    by_cases hnamed : ∃ path, readPath s.1.memory (s.1.registers .R2) = .ok (.ok path)
    · obtain ⟨path, hpath⟩ := hnamed
      refine ⟨path, namedPath_of_readPath hpath, ?_⟩
      rw [filesystemService_of_path hpath] at hrun
      generalize hcall : filesystemCall service (s.1.registers .R2) path
        (requestResult (s.1.registers .R2)) s = out at hrun
      obtain ⟨out, s''⟩ := out
      obtain ⟨hresult, rfl⟩ := Prod.mk.inj hrun
      obtain rfl := Except.ok.inj hresult
      cases out with
      | error fault => exact absurd (refused_fault _ fault) haccepted
      | ok returned =>
        rw [filesystemCall] at hcall
        split_ifs at hcall with hstat
        · exact .inl ⟨hstat, filesystemStat_refines (namedPath_of_readPath hpath) hcall haccepted⟩
        · rcases filesystemTransfer_refines hcall haccepted with ⟨hread, hrefines⟩ | ⟨hread, hrefines⟩
          · exact .inr (.inl ⟨hread, hrefines⟩)
          · exact .inr (.inr ⟨(hservice.resolve_left hstat).resolve_left hread, hrefines⟩)
    · have hnone := (@filesystemService_of_no_path service s fun path hpath =>
        hnamed ⟨path, hpath⟩).2 result (by rw [hrun])
      exact absurd hnone haccepted
  · exact fun i hi => ((Served.closed s.1).keeps_filesystemService service s (Served.refl s.1)).byteAt i hi

/-- A guest that reads `/a` from offset 0 into address 200, eight bytes at most. -/
def readsTwoBytes : CPUState × ZeroFS :=
  ({ CPUState.initial with
      memory := ((Memory.ofSize kDefaultMemorySize).splice 0 "/a").splice 64
        (leBytes 8 (0 : Word) ++ leBytes 8 (2 : Word) ++ leBytes 8 (0 : Word)
          ++ leBytes 8 (200 : Word) ++ leBytes 8 (8 : Word))
      registers := CPUState.initial.registers.set .R2 64
      privilegeLevel := .user },
    ⟨SortedMap.empty.emplace "/a" ⟨.File, [7, 8]⟩⟩)

/-- A read of two bytes. -/
theorem filesystem_calls_refine_twoBytes :
    ∃ result s', filesystemService ABI.kFilesystemReadSyscall readsTwoBytes = (.ok result, s')
      ∧ ∃ path, ReadRefines path readsTwoBytes s' := by
  have hstatus : (filesystemService ABI.kFilesystemReadSyscall readsTwoBytes).1.map
      SoftwareInterruptResult.status = .ok (some ABI.kStatusOk) := by decide +kernel
  obtain ⟨hrefines, -, -⟩ :=
    filesystem_calls_refine ABI.kFilesystemReadSyscall (.inr (.inl rfl)) readsTwoBytes
  cases hrun : filesystemService ABI.kFilesystemReadSyscall readsTwoBytes with
  | mk out s' =>
    rw [hrun] at hstatus
    cases out with
    | error e => cases hstatus
    | ok result =>
      obtain ⟨path, -, h⟩ := hrefines result s' hrun (Except.ok.inj hstatus)
      rcases h with ⟨hstat, -⟩ | ⟨-, hread⟩ | ⟨hwrite, -⟩
      · exact absurd hstat (by decide)
      · exact ⟨result, s', rfl, path, hread⟩
      · exact absurd hwrite (by decide)

end ZeroCpu.Kernel
