import ZeroCpu.Binary.Loader

/-!
# Process images

Reference: `src/kernel/ExecutableMetadata.cpp`, `src/kernel/ProcessImage.cpp`,
`src/kernel/ProcessImageLoader.cpp`.

A process image is an executable together with the 4 KiB memory it starts from and its initial
User context. `ValidImage` states in one place what `validateProcessImage` guarantees, and is what
every later proof about a process starts from.
-/

namespace ZeroCpu.Kernel

open Library Binary MemoryMap

/-- `ExecutableMetadata`. -/
structure ExecutableMetadata where
  source_name : Str
  format_major_version : UInt8
  format_minor_version : UInt8
  endianness : BinaryEndianness
  memory_size : ℕ
  code_base : ℕ
  code_size : ℕ
  code_end_exclusive : ℕ
  entry_offset : ℕ
  entry_point : ℕ
  data_base : ℕ
  data_size : ℕ
  data_end_exclusive : ℕ
  user_data_begin : ℕ
  user_data_end_exclusive : ℕ
  user_stack_begin : ℕ
  user_stack_end_exclusive : ℕ
deriving DecidableEq

/-- `validateExecutableMetadata`. -/
def validateExecutableMetadata (metadata : ExecutableMetadata) : Except Str Unit := do
  reject (metadata.source_name = []) "Executable source name must not be empty"
  reject (¬ isSupportedVersion metadata.format_major_version metadata.format_minor_version)
    "Unsupported executable version"
  reject (metadata.endianness ≠ .Little)
    "Process images currently require little-endian executables"
  reject (metadata.memory_size ≠ kDefaultMemorySize)
    "Process image memory size does not match the protected Zero-CPU memory layout"
  reject (metadata.code_base ≠ kBinaryCodeBase)
    "Process image code base does not match the current executable loading convention"
  reject (metadata.code_size = 0) "Executable code section is empty"
  reject (metadata.code_size % kInstructionSize ≠ 0)
    "Executable code size is not a multiple of instruction size"
  reject (metadata.code_base > metadata.memory_size
      ∨ metadata.code_size > metadata.memory_size - metadata.code_base)
    "Executable code section is outside process memory"
  reject (metadata.code_end_exclusive ≠ metadata.code_base + metadata.code_size)
    "Executable code end does not match code base and size"
  reject (metadata.code_end_exclusive > kUserStackBase)
    "Executable code section overlaps the protected User stack"
  reject (metadata.entry_offset ≥ metadata.code_size)
    "Executable entry point is outside the code section"
  reject (metadata.entry_offset % kInstructionAlignment ≠ 0)
    "Executable entry point is not instruction-aligned"
  reject (metadata.code_base > sizeMax - metadata.entry_offset)
    "Executable entry point address overflow"
  reject (metadata.entry_point ≠ metadata.code_base + metadata.entry_offset)
    "Executable entry point does not match code base and entry offset"
  reject (metadata.user_data_begin ≠ kUserDataBase
      ∨ metadata.user_data_end_exclusive ≠ kUserDataEndExclusive)
    "Executable User data range does not match the protected memory layout"
  reject (metadata.user_data_end_exclusive > metadata.code_base)
    "Executable User data range overlaps code"
  reject (metadata.data_base < metadata.user_data_begin
      ∨ metadata.data_base > metadata.user_data_end_exclusive)
    "Executable data base is outside the User data range"
  reject (metadata.data_size > metadata.user_data_end_exclusive - metadata.data_base)
    "Executable data section is outside the User data range"
  reject (metadata.data_base > sizeMax - metadata.data_size)
    "Executable data end address overflow"
  reject (metadata.data_end_exclusive ≠ metadata.data_base + metadata.data_size)
    "Executable data end does not match data base and size"
  reject (metadata.data_end_exclusive > metadata.code_base)
    "Executable data section overlaps code"
  reject (isLegacyVersion metadata.format_major_version metadata.format_minor_version
      ∧ metadata.data_size ≠ 0)
    "Legacy executable cannot contain data"
  reject (metadata.user_stack_begin ≠ kUserStackBase
      ∨ metadata.user_stack_end_exclusive ≠ kUserStackEndExclusive)
    "Executable User stack range does not match the protected memory layout"
  reject (metadata.user_stack_begin ≥ metadata.user_stack_end_exclusive)
    "Executable User stack range is empty"

/-- `ProcessImage`. -/
structure ProcessImage where
  metadata : ExecutableMetadata
  executable : BinaryProgram
  memory : Memory
  initial_registers : RegisterFile
  initial_flags : BitVec 32
  initial_pc : ℕ
  initial_sp : ℕ
  initial_privilege : PrivilegeLevel
  initial_kernel_stack_pointer : ℕ

/-- `validateProcessImage`. -/
def validateProcessImage (image : ProcessImage) : Except Str Unit := do
  validateExecutableMetadata image.metadata
  reject (image.executable.header.major_version ≠ image.metadata.format_major_version
      ∨ image.executable.header.minor_version ≠ image.metadata.format_minor_version
      ∨ image.executable.header.endianness ≠ image.metadata.endianness)
    "Process image executable header does not match its metadata"
  reject (image.executable.header.code_size.toNat ≠ image.metadata.code_size
      ∨ image.executable.code.length ≠ image.metadata.code_size)
    "Process image executable code size does not match its metadata"
  reject (image.executable.header.entry_point.toNat ≠ image.metadata.entry_offset)
    "Process image executable entry point does not match its metadata"
  reject (image.executable.header.data_base.toNat ≠ image.metadata.data_base
      ∨ image.executable.header.data_size.toNat ≠ image.metadata.data_size
      ∨ image.executable.data.length ≠ image.metadata.data_size)
    "Process image executable data section does not match its metadata"
  reject (image.memory.size ≠ image.metadata.memory_size)
    "Process image memory size does not match its metadata"
  let code ← image.memory.readBytes image.metadata.code_base image.metadata.code_size
  reject (code ≠ image.executable.code)
    "Process image memory does not contain the executable code section"
  let data ← image.memory.readBytes image.metadata.data_base image.metadata.data_size
  reject (data ≠ image.executable.data)
    "Process image memory does not contain the initialized data section"
  reject (RegisterName.all.any fun reg => image.initial_registers reg != 0)
    "Process image initial registers must be zero"
  reject (image.initial_flags ≠ 0) "Process image initial FLAGS must be zero"
  reject (image.initial_pc ≠ image.metadata.entry_point)
    "Process image initial PC does not match the executable entry point"
  reject (image.initial_sp ≠ image.metadata.user_stack_begin)
    "Process image initial SP does not match the User stack base"
  reject (image.initial_privilege ≠ .user) "Process image initial privilege must be User"
  reject (image.initial_kernel_stack_pointer ≠ kKernelStackBase)
    "Process image initial Kernel SP does not match the Kernel stack base"

/-! ## The loader -/

/-- The metadata of a program, with the overflow checks of the source. -/
def makeMetadata (program : BinaryProgram) (sourceName : Str) : Except Str ExecutableMetadata := do
  let code_base := kBinaryCodeBase
  let code_size := program.header.code_size.toNat
  reject (code_size > sizeMax - code_base) "Executable code end address overflow"
  let entry_offset := program.header.entry_point.toNat
  reject (entry_offset > sizeMax - code_base) "Executable entry point address overflow"
  let data_base := program.header.data_base.toNat
  let data_size := program.header.data_size.toNat
  reject (data_size > sizeMax - data_base) "Executable data end address overflow"
  pure {
    source_name := sourceName
    format_major_version := program.header.major_version
    format_minor_version := program.header.minor_version
    endianness := program.header.endianness
    memory_size := kDefaultMemorySize
    code_base := code_base
    code_size := code_size
    code_end_exclusive := code_base + code_size
    entry_offset := entry_offset
    entry_point := code_base + entry_offset
    data_base := data_base
    data_size := data_size
    data_end_exclusive := data_base + data_size
    user_data_begin := kUserDataBase
    user_data_end_exclusive := kUserDataEndExclusive
    user_stack_begin := kUserStackBase
    user_stack_end_exclusive := kUserStackEndExclusive }

namespace ProcessImageLoader

/-- `ProcessImageLoader::loadProgram`. -/
def loadProgram (program : BinaryProgram) (sourceName : Str) : Except Str ProcessImage := do
  let metadata ← makeMetadata program sourceName
  validateExecutableMetadata metadata
  let (loaded, memory) ← BinaryLoader.loadIntoMemory program (Memory.ofSize kDefaultMemorySize)
    metadata.code_base
  reject (loaded.code_base ≠ metadata.code_base ∨ loaded.code_size ≠ metadata.code_size
      ∨ loaded.entry_point ≠ metadata.entry_point ∨ loaded.data_base ≠ metadata.data_base
      ∨ loaded.data_size ≠ metadata.data_size)
    "Binary loader result does not match process image metadata"
  let image : ProcessImage := {
    metadata := metadata
    executable := program
    memory := memory
    initial_registers := RegisterFile.zero
    initial_flags := 0
    initial_pc := metadata.entry_point
    initial_sp := metadata.user_stack_begin
    initial_privilege := .user
    initial_kernel_stack_pointer := kKernelStackBase }
  validateProcessImage image
  pure image

/-- `ProcessImageLoader::loadFromBytes`. -/
def loadFromBytes (bytes : List UInt8) (sourceName : Str) : Except Str ProcessImage := do
  let program ← BinaryReader.readFromBytes bytes
  loadProgram program sourceName

end ProcessImageLoader

/-! ## What validation guarantees -/

/-- The content of `validateProcessImage`, with the fixed memory map filled in. -/
structure ValidImage (image : ProcessImage) : Prop where
  source_name : image.metadata.source_name ≠ []
  supported : image.executable.header.isSupported = true
  little : image.executable.header.endianness = .Little
  header_version : image.executable.header.major_version = image.metadata.format_major_version
    ∧ image.executable.header.minor_version = image.metadata.format_minor_version
    ∧ image.executable.header.endianness = image.metadata.endianness
  memory_size : image.memory.size = 4096
  metadata_memory_size : image.metadata.memory_size = 4096
  code_base : image.metadata.code_base = 512
  code_size : image.metadata.code_size = image.executable.code.length
  header_code_size : image.executable.header.code_size.toNat = image.executable.code.length
  code_pos : 0 < image.executable.code.length
  code_aligned : image.executable.code.length % 24 = 0
  code_end : image.metadata.code_end_exclusive = 512 + image.executable.code.length
  code_le : image.executable.code.length ≤ 1536
  entry_offset : image.metadata.entry_offset = image.executable.header.entry_point.toNat
  entry_lt : image.executable.header.entry_point.toNat < image.executable.code.length
  entry_aligned : image.executable.header.entry_point.toNat % 24 = 0
  entry_point : image.metadata.entry_point = 512 + image.executable.header.entry_point.toNat
  data_base : image.metadata.data_base = image.executable.header.data_base.toNat
  data_size : image.metadata.data_size = image.executable.data.length
  header_data_size : image.executable.header.data_size.toNat = image.executable.data.length
  data_end : image.metadata.data_end_exclusive
    = image.executable.header.data_base.toNat + image.executable.data.length
  data_le : image.executable.header.data_base.toNat + image.executable.data.length ≤ 512
  legacy_data : image.executable.header.isLegacy = true → image.executable.data = []
  user_data : image.metadata.user_data_begin = 0 ∧ image.metadata.user_data_end_exclusive = 512
  user_stack : image.metadata.user_stack_begin = 2048
    ∧ image.metadata.user_stack_end_exclusive = 4000
  memory_code : image.memory.slice 512 image.executable.code.length = image.executable.code
  memory_data : image.memory.slice image.executable.header.data_base.toNat
    image.executable.data.length = image.executable.data
  registers : image.initial_registers = RegisterFile.zero
  flags : image.initial_flags = 0
  pc : image.initial_pc = 512 + image.executable.header.entry_point.toNat
  sp : image.initial_sp = 2048
  privilege : image.initial_privilege = .user
  kernel_sp : image.initial_kernel_stack_pointer = 4000

/-- No register differs from zero exactly where the registers are zero. -/
theorem any_register_ne_zero (registers : RegisterFile) :
    (RegisterName.all.any fun reg => registers reg != 0) = false
      ↔ registers = RegisterFile.zero := by
  rw [List.any_eq_false]
  constructor
  · intro h
    funext reg
    simpa [RegisterFile.zero] using h reg (RegisterName.mem_all reg)
  · rintro rfl reg -
    simp [RegisterFile.zero]

/-- What `validateExecutableMetadata` guarantees. -/
theorem validateExecutableMetadata_eq_ok {metadata : ExecutableMetadata} {u : Unit} :
    validateExecutableMetadata metadata = .ok u ↔
      metadata.source_name ≠ []
      ∧ isSupportedVersion metadata.format_major_version metadata.format_minor_version = true
      ∧ metadata.endianness = .Little ∧ metadata.memory_size = 4096 ∧ metadata.code_base = 512
      ∧ 0 < metadata.code_size ∧ metadata.code_size % 24 = 0
      ∧ metadata.code_end_exclusive = 512 + metadata.code_size ∧ metadata.code_size ≤ 1536
      ∧ metadata.entry_offset < metadata.code_size ∧ metadata.entry_offset % 24 = 0
      ∧ metadata.entry_point = 512 + metadata.entry_offset
      ∧ (metadata.user_data_begin = 0 ∧ metadata.user_data_end_exclusive = 512)
      ∧ metadata.data_base + metadata.data_size ≤ 512
      ∧ metadata.data_end_exclusive = metadata.data_base + metadata.data_size
      ∧ (isLegacyVersion metadata.format_major_version metadata.format_minor_version = true →
        metadata.data_size = 0)
      ∧ metadata.user_stack_begin = 2048 ∧ metadata.user_stack_end_exclusive = 4000 := by
  simp only [validateExecutableMetadata, bind_eq_ok, reject_eq_ok, exists_const, not_not, not_and]
  simp only [kDefaultMemorySize, kBinaryCodeBase, kInstructionAlignment, kInstructionSize,
    kUserStackBase, kDefaultStackBase, kUserDataBase, kUserDataEndExclusive, kUserDataSize,
    kUserStackEndExclusive, kBioOSStackBase, sizeMax]
  constructor
  · rintro ⟨h1, h2, h3, h4, h5, h6, h7, h8, h9, h10, h11, h12, h13, h14, h15, h16, h17, h18, h19,
      h20, h21, h22, h23, h24⟩
    refine ⟨h1, h2, h3, h4, h5, ?_, ?_, ?_, ?_, ?_, ?_, ?_, ?_, ?_, ?_, h22, ?_⟩ <;> omega
  · rintro ⟨h1, h2, h3, h4, h5, h6, h7, h8, h9, h10, h11, h12, h13, h14, h15, h16, h17⟩
    refine ⟨h1, h2, h3, h4, h5, ?_, ?_, ?_, ?_, ?_, ?_, ?_, ?_, ?_, ?_, ?_, ?_, ?_, ?_, ?_, ?_, h16,
      ?_, ?_⟩ <;> omega

/-- `validateProcessImage` accepts exactly the valid images. -/
theorem validateProcessImage_eq_ok {image : ProcessImage} {u : Unit} :
    validateProcessImage image = .ok u ↔ ValidImage image := by
  simp only [validateProcessImage, bind_eq_ok, reject_eq_ok, exists_const,
    validateExecutableMetadata_eq_ok, Memory.readBytes_eq_ok, not_or, not_not, Bool.not_eq_true,
    any_register_ne_zero]
  constructor
  -- The checks compare the header, the metadata and the memory with each other; `ValidImage` says
  -- each fact once, so most fields are a rewriting of two checks.
  · rintro ⟨⟨hname, hsupp, hlittle, hmem, hbase, hpos, halign, hend, hle, hentry, hentryAlign,
      hentryPoint, huser, hdata, hdataEnd, hlegacy, hstack⟩, ⟨hmaj, hmin, hendian⟩,
      ⟨hcs, hcl⟩, heo, ⟨hdb, hds, hdl⟩, hms, code, ⟨-, rfl⟩, hcode, data, ⟨-, rfl⟩, hdat, hregs,
      hflags, hpc, hsp, hpriv, hksp⟩
    rw [← hmaj, ← hmin] at hsupp hlegacy
    rw [hbase, ← hcl] at hcode
    rw [← hdb, ← hdl] at hdat
    exact {
      source_name := hname
      supported := hsupp
      little := hendian.trans hlittle
      header_version := ⟨hmaj, hmin, hendian⟩
      memory_size := hms.trans hmem
      metadata_memory_size := hmem
      code_base := hbase
      code_size := hcl.symm
      header_code_size := hcs.trans hcl.symm
      code_pos := by omega
      code_aligned := by omega
      code_end := by omega
      code_le := by omega
      entry_offset := heo.symm
      entry_lt := by omega
      entry_aligned := by omega
      entry_point := by omega
      data_base := hdb.symm
      data_size := hdl.symm
      header_data_size := hds.trans hdl.symm
      data_end := by omega
      data_le := by omega
      legacy_data := fun hl => List.length_eq_zero_iff.mp (hdl.trans (hlegacy hl))
      user_data := huser
      user_stack := hstack
      memory_code := hcode
      memory_data := hdat
      registers := hregs
      flags := hflags
      pc := by omega
      sp := hsp.trans hstack.1
      privilege := hpriv
      kernel_sp := hksp }
  · intro h
    have hms := h.memory_size
    have hcle := h.code_le
    have hdle := h.data_le
    refine ⟨⟨h.source_name, ?_, ?_, h.metadata_memory_size, h.code_base, ?_, ?_, ?_, ?_, ?_,
      ?_, ?_, h.user_data, ?_, ?_, ?_, h.user_stack⟩, h.header_version,
      ⟨h.header_code_size.trans h.code_size.symm, h.code_size.symm⟩, h.entry_offset.symm,
      ⟨h.data_base.symm, h.header_data_size.trans h.data_size.symm, h.data_size.symm⟩,
      hms.trans h.metadata_memory_size.symm, _, ⟨?_, rfl⟩, ?_, _, ⟨?_, rfl⟩, ?_, h.registers,
      h.flags, ?_, ?_, h.privilege, h.kernel_sp⟩
    · rw [← h.header_version.1, ← h.header_version.2.1]
      exact h.supported
    · rw [← h.header_version.2.2]
      exact h.little
    · rw [h.code_size]; exact h.code_pos
    · rw [h.code_size]; exact h.code_aligned
    · rw [h.code_end, h.code_size]
    · rw [h.code_size]; exact h.code_le
    · rw [h.entry_offset, h.code_size]; exact h.entry_lt
    · rw [h.entry_offset]; exact h.entry_aligned
    · rw [h.entry_point, h.entry_offset]
    · rw [h.data_base, h.data_size]; exact h.data_le
    · rw [h.data_end, h.data_base, h.data_size]
    · rw [← h.header_version.1, ← h.header_version.2.1, h.data_size]
      exact fun hl => List.length_eq_zero_iff.mpr (h.legacy_data hl)
    · rw [h.code_base, h.code_size]; omega
    · rw [h.code_base, h.code_size]; exact h.memory_code
    · rw [h.data_base, h.data_size]; omega
    · rw [h.data_base, h.data_size]; exact h.memory_data
    · rw [h.pc, h.entry_point]
    · rw [h.sp, h.user_stack.1]

/-! ## What the loader builds -/

/-- The programs that fit the process memory map. -/
structure Loadable (program : BinaryProgram) : Prop where
  supported : program.header.isSupported = true
  little : program.header.endianness = .Little
  header_code_size : program.header.code_size.toNat = program.code.length
  header_data_size : program.header.data_size.toNat = program.data.length
  code_pos : 0 < program.code.length
  code_le : program.code.length ≤ 1536
  code_aligned : program.code.length % 24 = 0
  entry_lt : program.header.entry_point.toNat < program.code.length
  entry_aligned : program.header.entry_point.toNat % 24 = 0
  data_le : program.header.data_base.toNat + program.data.length ≤ 512
  legacy_data : program.header.isLegacy = true → program.data = [] ∧ program.header.data_base = 0

/-- The metadata of a loadable program. -/
def metadataOf (program : BinaryProgram) (sourceName : Str) : ExecutableMetadata where
  source_name := sourceName
  format_major_version := program.header.major_version
  format_minor_version := program.header.minor_version
  endianness := program.header.endianness
  memory_size := kDefaultMemorySize
  code_base := kBinaryCodeBase
  code_size := program.header.code_size.toNat
  code_end_exclusive := kBinaryCodeBase + program.header.code_size.toNat
  entry_offset := program.header.entry_point.toNat
  entry_point := kBinaryCodeBase + program.header.entry_point.toNat
  data_base := program.header.data_base.toNat
  data_size := program.header.data_size.toNat
  data_end_exclusive := program.header.data_base.toNat + program.header.data_size.toNat
  user_data_begin := kUserDataBase
  user_data_end_exclusive := kUserDataEndExclusive
  user_stack_begin := kUserStackBase
  user_stack_end_exclusive := kUserStackEndExclusive

/-- The image the loader builds: both sections in an otherwise zero memory, and a fresh User
context at the entry point. -/
def imageOf (program : BinaryProgram) (sourceName : Str) : ProcessImage where
  metadata := metadataOf program sourceName
  executable := program
  memory := BinaryLoader.loadedMemory program (Memory.ofSize kDefaultMemorySize) kBinaryCodeBase
  initial_registers := RegisterFile.zero
  initial_flags := 0
  initial_pc := kBinaryCodeBase + program.header.entry_point.toNat
  initial_sp := kUserStackBase
  initial_privilege := .user
  initial_kernel_stack_pointer := kKernelStackBase

/-- The checks of the metadata always pass. -/
theorem makeMetadata_eq_ok {program : BinaryProgram} {sourceName : Str}
    {metadata : ExecutableMetadata} :
    makeMetadata program sourceName = .ok metadata ↔ metadata = metadataOf program sourceName := by
  have h1 := program.header.code_size.isLt
  have h2 := program.header.entry_point.isLt
  have h3 := program.header.data_base.isLt
  have h4 := program.header.data_size.isLt
  simp only [makeMetadata, bind_eq_ok, reject_eq_ok, exists_const]
  constructor
  · rintro ⟨-, -, -, h⟩
    exact (Except.ok.inj h).symm
  · rintro rfl
    refine ⟨?_, ?_, ?_, rfl⟩ <;> simp only [sizeMax, kBinaryCodeBase] <;> omega

/-- The memory of a loaded image, byte by byte. -/
theorem Loadable.byteAt_memory {program : BinaryProgram} (h : Loadable program) (sourceName : Str)
    (i : ℕ) : (imageOf program sourceName).memory.byteAt i
      = if 512 ≤ i ∧ i < 512 + program.code.length then program.code.getD (i - 512) 0
        else if program.header.data_base.toNat ≤ i
          ∧ i < program.header.data_base.toNat + program.data.length then
          program.data.getD (i - program.header.data_base.toNat) 0
        else 0 := by
  have hd := h.data_le
  have hc := h.code_le
  have hfit : program.header.data_base.toNat + program.data.length
      ≤ (Memory.ofSize kDefaultMemorySize).size := by
    rw [Memory.size_ofSize, kDefaultMemorySize]
    omega
  rw [imageOf, BinaryLoader.loadedMemory, Memory.byteAt_splice, Memory.byteAt_splice hfit,
    Memory.byteAt_ofSize, kBinaryCodeBase]
  rw [Memory.size_splice hfit, Memory.size_ofSize, kDefaultMemorySize, kBinaryCodeBase]
  omega

/-- The image of a loadable program has the memory of a process. -/
theorem Loadable.memory_size {program : BinaryProgram} (h : Loadable program) (sourceName : Str) :
    (imageOf program sourceName).memory.size = 4096 := by
  have hd := h.data_le
  have hc := h.code_le
  have hfit : program.header.data_base.toNat + program.data.length
      ≤ (Memory.ofSize kDefaultMemorySize).size := by
    rw [Memory.size_ofSize, kDefaultMemorySize]
    omega
  rw [imageOf, BinaryLoader.loadedMemory, Memory.size_splice, Memory.size_splice hfit,
    Memory.size_ofSize, kDefaultMemorySize]
  rw [Memory.size_splice hfit, Memory.size_ofSize, kDefaultMemorySize, kBinaryCodeBase]
  omega

/-- A slice whose bytes are those of a list is that list. -/
theorem slice_eq_of_byteAt {memory : Memory} {address : ℕ} {bytes : List UInt8}
    (hfit : address + bytes.length ≤ memory.size)
    (h : ∀ i, i < bytes.length → memory.byteAt (address + i) = bytes.getD i 0) :
    memory.slice address bytes.length = bytes := by
  apply List.ext_getElem?
  intro i
  by_cases hi : i < bytes.length
  · rw [Memory.getElem?_slice hfit hi, h i hi, List.getD_eq_getElem _ _ hi,
      List.getElem?_eq_getElem hi]
  · rw [List.getElem?_eq_none (by rw [Memory.length_slice hfit]; omega),
      List.getElem?_eq_none (by omega)]

/-- The image of a loadable program is valid. -/
theorem Loadable.validImage {program : BinaryProgram} (h : Loadable program) {sourceName : Str}
    (hname : sourceName ≠ []) : ValidImage (imageOf program sourceName) := by
  have hsize := h.memory_size sourceName
  have hbytes := h.byteAt_memory sourceName
  have hd := h.data_le
  have hc := h.code_le
  exact {
    source_name := hname
    supported := h.supported
    little := h.little
    header_version := ⟨rfl, rfl, rfl⟩
    memory_size := hsize
    metadata_memory_size := rfl
    code_base := rfl
    code_size := h.header_code_size
    header_code_size := h.header_code_size
    code_pos := h.code_pos
    code_aligned := h.code_aligned
    code_end := congrArg (512 + ·) h.header_code_size
    code_le := h.code_le
    entry_offset := rfl
    entry_lt := h.entry_lt
    entry_aligned := h.entry_aligned
    entry_point := rfl
    data_base := rfl
    data_size := h.header_data_size
    header_data_size := h.header_data_size
    data_end := congrArg (program.header.data_base.toNat + ·) h.header_data_size
    data_le := h.data_le
    legacy_data := fun hl => (h.legacy_data hl).1
    user_data := ⟨rfl, rfl⟩
    user_stack := ⟨rfl, rfl⟩
    -- The two sections are disjoint, so each is found in memory as it was written.
    memory_code := by
      refine slice_eq_of_byteAt (by rw [hsize]; change 512 + program.code.length ≤ 4096; omega) ?_
      intro i hi
      change i < program.code.length at hi
      rw [hbytes, if_pos (by omega), Nat.add_sub_cancel_left]
      rfl
    memory_data := by
      refine slice_eq_of_byteAt ?_ ?_
      · rw [hsize]
        change program.header.data_base.toNat + program.data.length ≤ 4096
        omega
      · intro i hi
        change i < program.data.length at hi
        change (imageOf program sourceName).memory.byteAt (program.header.data_base.toNat + i)
          = program.data.getD i 0
        rw [hbytes, if_neg (by omega), if_pos (by omega), Nat.add_sub_cancel_left]
    registers := rfl
    flags := rfl
    pc := rfl
    sp := rfl
    privilege := rfl
    kernel_sp := rfl }

/-- The loader accepts exactly the loadable programs. -/
theorem loadProgram_eq_ok {program : BinaryProgram} {sourceName : Str} {image : ProcessImage} :
    ProcessImageLoader.loadProgram program sourceName = .ok image
      ↔ sourceName ≠ [] ∧ Loadable program ∧ image = imageOf program sourceName := by
  simp only [ProcessImageLoader.loadProgram, bind_eq_ok, makeMetadata_eq_ok, exists_eq_left,
    validateExecutableMetadata_eq_ok, exists_const, reject_eq_ok]
  constructor
  · rintro ⟨⟨hname, hsupp, hlittle, -, -, hpos, halign, -, hle, hentry, hentryAlign, -, -, hdata,
      -⟩, ⟨loaded, memory⟩, hload, -, _, -, heq⟩
    obtain ⟨hvp, -, -, -, rfl, rfl⟩ := BinaryLoader.loadIntoMemory_eq_ok.mp hload
    rw [BinaryLoader.validateProgram_eq_ok] at hvp
    obtain ⟨-, -, -, hcs, hds, -, -, -, hlegacy⟩ := hvp
    simp only [metadataOf] at hsupp hlittle hpos halign hle hentry hentryAlign hdata
    rw [hcs] at hpos halign hle hentry
    rw [hds] at hdata
    exact ⟨hname, ⟨hsupp, hlittle, hcs, hds, hpos, hle, halign, hentry, hentryAlign, hdata, hlegacy⟩,
      (Except.ok.inj heq).symm⟩
  · rintro ⟨hname, h, rfl⟩
    -- The image of a loadable program passes the same check at the end.
    have hvalid := h.validImage hname
    have hd := h.data_le
    have hc := h.code_le
    refine ⟨?_, (_, BinaryLoader.loadedMemory program (Memory.ofSize kDefaultMemorySize)
      kBinaryCodeBase), BinaryLoader.loadIntoMemory_eq_ok.mpr ⟨?_, ?_, ?_, ?_, rfl, rfl⟩, ?_, (),
      validateProcessImage_eq_ok.mpr hvalid, rfl⟩
    · have hmeta : validateProcessImage _ = .ok () := validateProcessImage_eq_ok.mpr hvalid
      simp only [validateProcessImage, bind_eq_ok, validateExecutableMetadata_eq_ok,
        exists_const] at hmeta
      exact hmeta.1
    · rw [BinaryLoader.validateProgram_eq_ok]
      refine ⟨h.supported, h.little, ?_, h.header_code_size, h.header_data_size, h.code_aligned,
        h.entry_lt, h.entry_aligned, h.legacy_data⟩
      exact List.ne_nil_of_length_pos h.code_pos
    · rw [Memory.size_ofSize]
      simp only [metadataOf, kBinaryCodeBase, kDefaultMemorySize]
      omega
    · rw [Memory.size_ofSize, kDefaultMemorySize]
      omega
    · rw [rangesOverlap_eq_false]
      simp only [metadataOf, kBinaryCodeBase]
      omega
    · simp only [metadataOf, h.header_code_size, h.header_data_size]
      omega

end ZeroCpu.Kernel
