import ZeroCpu.Core.UserMode
import ZeroCpu.Kernel.Scheduler

/-!
# Putting a process on the CPU

`ProcessAddressSpace::activate` reloads the process's binary into the one CPU object, which resets
almost every member of it, and `restoreProcessContext` then puts the saved context back. The two
together are one assignment, `resumedCpu`: of the old CPU only the connected devices, the devices'
world, the trace and the last system call's record are left. Capturing the context of a CPU inside
the User-mode confinement never fails.
-/

namespace ZeroCpu.Kernel

open Library Binary MemoryMap

variable {W : Type}

/-! ## What is on the CPU -/

/-- The members that loading an image's executable fixes. -/
def loadedSetup (m : Setup W) (image : ProcessImage) : Setup W :=
  { m with
    program := []
    labels := []
    hasBinaryProgram := true
    binaryCodeBase := 512
    binaryEntryPoint := 512 + image.executable.header.entry_point.toNat
    binaryCodeSize := image.executable.code.length
    hasUserCodeRange := true
    userCodeBegin := 512
    userCodeEndExclusive := 512 + image.executable.code.length }

/-- The CPU with a process of the image on it, in the given context and memory. -/
def resumedCpu (cpu : CPU W) (image : ProcessImage) (context : ProcessContext) (memory : Memory) :
    CPU W where
  setup := loadedSetup cpu.setup image
  core :=
    { state :=
        { registers := context.registers
          memory := memory
          flags := ⟨context.flags⟩
          privilegeLevel := context.privilege
          pc := context.pc
          sp := context.sp
          halted := false
          hasError := false
          errorMessage := [] }
      kernelStackPointer := context.kernel_stack_pointer
      usingKernelInterruptStack := false
      softwareInterruptObservation := cpu.core.softwareInterruptObservation
      processExitRequest := none
      world := cpu.core.world }
  trace := cpu.trace

/-- The binary loader takes the image's executable; validation of an image lets a legacy executable
name a data base, which the loader refuses. -/
def Activatable (image : ProcessImage) : Prop :=
  image.executable.header.isLegacy = true → image.executable.header.data_base = 0

/-- The loaded CPU is set up for User mode. -/
theorem userSetup_loadedSetup {image : ProcessImage} (hv : ValidImage image) (m : Setup W) :
    UserSetup (loadedSetup m image) image.executable.code.length where
  binary := rfl
  base := rfl
  size := rfl
  has_range := rfl
  range_begin := rfl
  range_end := rfl
  aligned := hv.code_aligned
  le := hv.code_le

/-! ## Saved contexts -/

/-- A context in which the image's process can be put back on the CPU. -/
structure SavedContext (image : ProcessImage) (context : ProcessContext) : Prop where
  pid : context.pid ≠ 0
  privilege : context.privilege = .user
  has_range : context.has_user_code_range = true
  range_begin : context.user_code_begin = 512
  range_end : context.user_code_end_exclusive = 512 + image.executable.code.length
  stack_begin : context.user_stack_begin = 2048
  stack_end : context.user_stack_end_exclusive = 4000
  kernel_sp : context.kernel_stack_pointer = 4000
  sp_ge : 2048 ≤ context.sp
  sp_le : context.sp ≤ 4000
  sp_aligned : context.sp % 8 = 0
  pc_ge : 512 ≤ context.pc
  pc_le : context.pc ≤ 512 + image.executable.code.length
  pc_aligned : context.pc % 24 = 512 % 24

/-- A memory in which the image's code is intact. -/
structure SavedMemory (image : ProcessImage) (memory : Memory) : Prop where
  size : memory.size = 4096
  code : ∀ i, 512 ≤ i → i < 2048 → memory.byteAt i = image.memory.byteAt i

/-- A saved context passes the check of a snapshot. -/
theorem SavedContext.snapshot_ok {image : ProcessImage} (hv : ValidImage image)
    {context : ProcessContext} (h : SavedContext image context) :
    validateProcessContextSnapshot context = .ok () := by
  have hpos := hv.code_pos
  have hge := h.sp_ge
  have hle := h.sp_le
  have hal := h.sp_aligned
  simp only [validateProcessContextSnapshot, validateUserCodeRangeShape, validateUserStackRange,
    validateKernelStackPointer, h.has_range, h.range_begin, h.range_end, h.stack_begin,
    h.stack_end, h.kernel_sp, Bool.not_true, Bool.false_eq_true, if_false, bind_eq_ok,
    reject_eq_ok, exists_const]
  simp only [kUserStackBase, kDefaultStackBase, kUserStackEndExclusive, kBioOSStackBase,
    CPU.kStackSlotSize, isKernelStackPointer, kKernelStackBase, kKernelStackEndExclusive,
    kDefaultMemorySize]
  have := h.pid
  refine ⟨this, by omega, ⟨by omega, by omega, by omega, by omega, by omega⟩, by simp, by omega⟩

/-- A saved context that is inside its code passes the check of a context. -/
theorem SavedContext.validate_ok {image : ProcessImage} (hv : ValidImage image)
    {context : ProcessContext} (h : SavedContext image context)
    (hpc : context.pc < 512 + image.executable.code.length) :
    validateProcessContext context = .ok () := by
  have hge := h.pc_ge
  simp only [validateProcessContext, bind_eq_ok, h.snapshot_ok hv, validateUserProgramCounter,
    reject_eq_ok, h.range_begin, h.range_end]
  exact ⟨(), trivial, by omega⟩

/-! ## Capture -/

/-- The confinement that an image's process runs in: its code and the gap up to the User stack keep
their bytes. -/
def imageConfinement (image : ProcessImage) (worldOk : W → Prop) : Confinement W where
  len := image.executable.code.length
  frozen := fun i => 512 ≤ i ∧ i < 2048
  memory := image.memory
  worldOk := worldOk

variable {image : ProcessImage} {worldOk : W → Prop} {cpu : CPU W}

/-- The memory of a User context can be saved. -/
theorem savedMemory_of_userContext (h : UserContext (imageConfinement image worldOk) cpu.core) :
    SavedMemory image cpu.core.state.memory where
  size := h.memory_size
  code := fun i h1 h2 => h.memory i ⟨h1, h2⟩

/-- The context of a CPU in User mode can be saved. -/
theorem savedContext_contextOf {pid : ProcessId} (hpid : pid ≠ 0) {m : Setup W}
    (hsetup : cpu.setup = loadedSetup m image)
    (h : UserContext (imageConfinement image worldOk) cpu.core) :
    SavedContext image (contextOf pid cpu) where
  pid := hpid
  privilege := h.privilege
  has_range := by rw [contextOf, hsetup]; rfl
  range_begin := by rw [contextOf, hsetup]; rfl
  range_end := by rw [contextOf, hsetup]; rfl
  stack_begin := rfl
  stack_end := rfl
  kernel_sp := h.kernel_sp
  sp_ge := h.sp_ge
  sp_le := h.sp_le
  sp_aligned := h.sp_aligned
  pc_ge := h.pc_ge
  pc_le := h.pc_le
  pc_aligned := h.pc_aligned

/-- Capturing a snapshot inside the confinement succeeds. -/
theorem captureProcessContextSnapshot_eq (hv : ValidImage image) {pid : ProcessId} (hpid : pid ≠ 0)
    {m : Setup W} (hsetup : cpu.setup = loadedSetup m image)
    (h : UserContext (imageConfinement image worldOk) cpu.core) :
    captureProcessContextSnapshot pid cpu = .ok (contextOf pid cpu) := by
  have hsnap := (savedContext_contextOf hpid hsetup h).snapshot_ok hv
  simp [captureProcessContextSnapshot, requireContextSwitchableCPU, h.kernel_stack_idle, hsnap,
    reject, pure, Except.pure]

/-- Capturing the context of a process that is not at the end of its code succeeds. -/
theorem captureProcessContext_eq (hv : ValidImage image) {pid : ProcessId} (hpid : pid ≠ 0)
    {m : Setup W} (hsetup : cpu.setup = loadedSetup m image)
    (h : UserContext (imageConfinement image worldOk) cpu.core)
    (hpc : cpu.core.state.pc < 512 + image.executable.code.length) :
    captureProcessContext pid cpu = .ok (contextOf pid cpu) := by
  have hvalid := (savedContext_contextOf hpid hsetup h).validate_ok hv hpc
  simp [captureProcessContext, captureProcessContextSnapshot_eq hv hpid hsetup h, hvalid, pure,
    Except.pure]

/-! ## Activation -/

/-- The address space of an image's process with the given memory. -/
def spaceOf (image : ProcessImage) (memory : Memory) : ProcessAddressSpace :=
  ⟨memory, some image.metadata, some image.executable⟩

/-- A saved memory holds the code. -/
theorem SavedMemory.slice_code (hv : ValidImage image) {memory : Memory}
    (h : SavedMemory image memory) :
    memory.slice 512 image.executable.code.length = image.executable.code := by
  have hle := hv.code_le
  rw [Memory.slice_congr (by rw [h.size]; omega) (by rw [hv.memory_size]; omega)
    fun i h1 h2 => h.code i h1 (by omega)]
  exact hv.memory_code

theorem ValidImage.validated (hv : ValidImage image) : validateProcessImage image = .ok () :=
  validateProcessImage_eq_ok.mpr hv

/-- The metadata of a valid image pass their check. -/
theorem ValidImage.metadata_ok (hv : ValidImage image) :
    validateExecutableMetadata image.metadata = .ok () := by
  obtain ⟨⟨⟩, h, -⟩ := bind_eq_ok.mp hv.validated
  exact h

/-- An address space whose code is intact passes its own validation. -/
theorem validate_spaceOf (hv : ValidImage image) {memory : Memory} (h : SavedMemory image memory) :
    (spaceOf image memory).validate = .ok () := by
  have hle := hv.code_le
  have hcode := h.slice_code hv
  simp only [spaceOf, ProcessAddressSpace.validate, ProcessAddressSpace.validateExecutable,
    bind_eq_ok, reject_eq_ok, exists_const, hv.metadata_ok, Memory.readBytes_eq_ok, h.size,
    hv.code_base, hv.code_size, hv.header_code_size, hv.entry_offset, hv.data_base, hv.data_size,
    hv.header_data_size, hv.header_version]
  refine ⟨by simp [kDefaultMemorySize], trivial, by simp, by simp, by simp, by simp, _,
    ⟨by omega, rfl⟩, by simp [hcode]⟩

/-- The executable of a valid image loads exactly when it is activatable. -/
theorem validateProgram_executable (hv : ValidImage image) :
    BinaryLoader.validateProgram image.executable = .ok () ↔ Activatable image := by
  rw [BinaryLoader.validateProgram_eq_ok, Activatable]
  constructor
  · rintro ⟨-, -, -, -, -, -, -, -, h⟩ hl
    exact (h hl).2
  · intro h
    exact ⟨hv.supported, hv.little, List.ne_nil_of_length_pos hv.code_pos, hv.header_code_size,
      hv.header_data_size, hv.code_aligned, hv.entry_lt, hv.entry_aligned,
      fun hl => ⟨hv.legacy_data hl, h hl⟩⟩

/-- The loader loads the executable of a valid image. -/
theorem loadIntoMemory_executable (hv : ValidImage image) (ha : Activatable image)
    {memory : Memory} (hsize : memory.size = 4096) :
    BinaryLoader.loadIntoMemory image.executable memory 512
      = .ok (⟨512, 512 + image.executable.header.entry_point.toNat,
          image.executable.code.length, image.executable.header.data_base.toNat,
          image.executable.data.length⟩,
        BinaryLoader.loadedMemory image.executable memory 512) := by
  have hc := hv.code_le
  have hd := hv.data_le
  refine BinaryLoader.loadIntoMemory_eq_ok.mpr
    ⟨(validateProgram_executable hv).mpr ha, by omega, by omega, ?_, rfl, rfl⟩
  rw [rangesOverlap_eq_false]
  omega

/-- What `activate` makes of the CPU. -/
def activatedCpu (cpu : CPU W) (image : ProcessImage) (memory : Memory) : CPU W where
  setup := loadedSetup cpu.setup image
  core :=
    { state := { cpu.core.state.reset with
        memory := memory
        pc := 512 + image.executable.header.entry_point.toNat }
      kernelStackPointer := 4000
      usingKernelInterruptStack := false
      softwareInterruptObservation := cpu.core.softwareInterruptObservation
      processExitRequest := none
      world := cpu.core.world }
  trace := cpu.trace

/-- Activating the address space of a valid image returns the activated CPU. -/
theorem activate_eq (cpu : CPU W) (hv : ValidImage image) (ha : Activatable image)
    {memory : Memory} (hm : SavedMemory image memory) (hsize : cpu.core.state.memory.size = 4096) :
    (spaceOf image memory).activate cpu = (.ok (), activatedCpu cpu image memory) := by
  have hload := loadIntoMemory_executable hv ha ((Memory.size_reset _).trans hsize)
  have hpos : (image.executable.code.length != 0) = true := by
    have := hv.code_pos
    simp only [bne_iff_ne]
    omega
  have hvalid := validate_spaceOf hv hm
  simp only [ProcessAddressSpace.activate, Exec.staged, Exec.bind_apply, Exec.lift_apply, hvalid]
  simp only [spaceOf, CPU.loadBinaryProgram, Exec.bind_apply, Exec.get_apply, Exec.modify_apply,
    Exec.lift_apply, CPU.kDefaultBinaryCodeBase, CPUState.reset, hload, hpos]
  rfl

/-- Without an activatable executable the activation fails and leaves the CPU alone. -/
theorem activate_error (cpu : CPU W) (hv : ValidImage image) (ha : ¬ Activatable image)
    (memory : Memory) :
    ∃ e, (spaceOf image memory).activate cpu = (.error e, cpu) := by
  have hload : ∀ memory, ∃ e, BinaryLoader.loadIntoMemory image.executable memory 512
      = .error e := by
    intro memory
    rcases h : BinaryLoader.loadIntoMemory image.executable memory 512 with e | ⟨loaded, memory'⟩
    · exact ⟨e, rfl⟩
    · exact absurd ((validateProgram_executable hv).mp (BinaryLoader.loadIntoMemory_eq_ok.mp h).1) ha
  obtain ⟨e, hload⟩ := hload cpu.core.state.memory.reset
  simp only [ProcessAddressSpace.activate, Exec.staged, Exec.bind_apply, Exec.lift_apply]
  rcases (spaceOf image memory).validate with e' | u
  · exact ⟨e', rfl⟩
  · refine ⟨e, ?_⟩
    simp only [spaceOf, CPU.loadBinaryProgram, Exec.bind_apply, Exec.get_apply, Exec.modify_apply,
      Exec.lift_apply, CPU.kDefaultBinaryCodeBase, CPUState.reset, hload]

/-! ## Restore -/

/-- A saved context inside its code passes the check of the CPU. -/
theorem validateProcessContextForCPU_eq (cpu : CPU W) (hv : ValidImage image)
    {context : ProcessContext}
    (hc : SavedContext image context) (hpc : context.pc < 512 + image.executable.code.length)
    {m : Setup W} (hsetup : cpu.setup = loadedSetup m image) :
    validateProcessContextForCPU context cpu = .ok () := by
  have hpos := hv.code_pos
  have hal := hv.code_aligned
  have hrange : CPU.validateUserCodeRange cpu.setup context.user_code_begin
      context.user_code_end_exclusive = .ok () := by
    rw [hsetup, hc.range_begin, hc.range_end]
    simp only [CPU.validateUserCodeRange, loadedSetup, if_true, bind_eq_ok]
    refine ⟨(), reject_eq_ok.mpr (by omega), (), reject_eq_ok.mpr (by omega), reject_eq_ok.mpr ?_⟩
    rw [Nat.add_sub_cancel_left, kInstructionSize]
    omega
  simp [validateProcessContextForCPU, hc.validate_ok hv hpc, hc.has_range, hrange]

/-- Restoring a saved context returns the resumed CPU. -/
theorem restoreProcessContext_eq (cpu : CPU W) (hv : ValidImage image)
    {context : ProcessContext}
    (hc : SavedContext image context) (hpc : context.pc < 512 + image.executable.code.length)
    (memory : Memory) :
    restoreProcessContext context (activatedCpu cpu image memory)
      = (.ok (), resumedCpu cpu image context memory) := by
  have hctx := validateProcessContextForCPU_eq (activatedCpu cpu image memory) hv hc hpc
    (m := cpu.setup) rfl
  have hrange : CPU.validateUserCodeRange (activatedCpu cpu image memory).setup
      context.user_code_begin context.user_code_end_exclusive = .ok () := by
    obtain ⟨⟨⟩, -, h⟩ := bind_eq_ok.mp hctx
    rw [if_pos hc.has_range] at h
    exact h
  have hswitch : requireContextSwitchableCPU (activatedCpu cpu image memory) = .ok () := rfl
  have hksp : CPU.requireStackPointerInRange 4000 kKernelStackBase kKernelStackEndExclusive
      = .ok () := by decide
  simp only [restoreProcessContext, CPU.setUserCodeRange, CPU.setKernelStackPointer,
    Exec.bind_apply, Exec.get_apply, Exec.lift_apply, Exec.modify_apply, hctx, hswitch,
    hc.has_range, if_true, hrange, Exec.require_apply, hc.kernel_sp, hksp]
  simp only [activatedCpu, Bool.not_false, if_true, Core.updateState, restoreState, resumedCpu,
    loadedSetup, hc.range_begin, hc.range_end, hc.kernel_sp]

/-- A saved process of an activatable image is put back on the CPU. -/
theorem resume_eq (hv : ValidImage image) (ha : Activatable image) {process : ProcessControlBlock}
    {memory : Memory} (hspace : process.addressSpace = spaceOf image memory)
    (hm : SavedMemory image memory) (hc : SavedContext image process.context)
    (hpc : process.context.pc < 512 + image.executable.code.length) {d : Dispatch W}
    (hsize : d.cpu.core.state.memory.size = 4096) :
    resume process d = (.ok (), { d with cpu := resumedCpu d.cpu image process.context memory }) := by
  have hact := activate_eq d.cpu hv ha hm hsize
  have hctx := validateProcessContextForCPU_eq (activatedCpu d.cpu image memory) hv hc hpc
    (m := d.cpu.setup) rfl
  have hres := restoreProcessContext_eq d.cpu hv hc hpc memory
  simp only [resume, hspace, Exec.bind_apply, Exec.zoom_apply, Dispatch.cpuRef, hact,
    Exec.get_apply, Exec.lift_apply, hctx, hres]

/-- A process whose image cannot be activated is not resumed. -/
theorem resume_error (hv : ValidImage image) (ha : ¬ Activatable image)
    {process : ProcessControlBlock} {memory : Memory}
    (hspace : process.addressSpace = spaceOf image memory) (d : Dispatch W) :
    ∃ e, (resume process d).1 = .error e := by
  obtain ⟨e, hact⟩ := activate_error d.cpu hv ha memory
  refine ⟨e, ?_⟩
  simp only [resume, hspace, Exec.bind_apply, Exec.zoom_apply, Dispatch.cpuRef, hact]

/-- The process put on the CPU runs inside its confinement. -/
theorem userRunning_resumedCpu (cpu : CPU W) {context : ProcessContext} {memory : Memory}
    (hc : SavedContext image context) (hm : SavedMemory image memory) (hw : worldOk cpu.core.world) :
    UserRunning (imageConfinement image worldOk) (resumedCpu cpu image context memory).core where
  privilege := hc.privilege
  memory_size := hm.size
  memory := fun i hi => hm.code i hi.1 hi.2
  kernel_stack_idle := rfl
  kernel_sp := hc.kernel_sp
  sp_ge := hc.sp_ge
  sp_le := hc.sp_le
  sp_aligned := hc.sp_aligned
  pc_ge := hc.pc_ge
  pc_le := hc.pc_le
  pc_aligned := hc.pc_aligned
  world := hw
  not_halted := rfl
  no_error := rfl

end ZeroCpu.Kernel
