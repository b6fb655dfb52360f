import ZeroCpu.Kernel.Resume

/-!
# User-mode confinement over whole runs

A process of any valid image, started on a CPU with any memory-mapped devices and no way into
Kernel mode, stays a User process of its own code and stack for ever. Data accesses are checked
against the User data window before they are routed to a device, so the only devices it can reach
are those mapped inside the window; `HostRun` records each of these accesses.
-/

namespace ZeroCpu.Kernel

open Library Binary Exec MemoryMap

variable {H : Type}

/-! ## The machine around the process -/

/-- A device plugged into the CPU's clock: one of the caller's own, or the timer. -/
inductive BoardDevice (H : Type) where
  | host (device : ClockedDevice H)
  | timer

/-- The device as the CPU sees it. -/
def BoardDevice.clocked : BoardDevice H → ClockedDevice (Board H)
  | .host device => ⟨device.name, Exec.zoom Board.hostRef device.tick⟩
  | .timer => TimerDevice.clocked Board.timerRef

/-- A CPU with a bus, the board's interrupt controller and clocked devices, and no host software
interrupt handler. The devices on the bus act on the host's part of the board only: the timer and the
controller are no devices of a bus. -/
def connectedCpu (board : Board H) (bus : Option (MMIOBus H)) (devices : List (BoardDevice H)) :
    CPU (Board H) :=
  let cpu := CPU.new board
  { cpu with setup := { cpu.setup with
    mmioBus := bus.map (MMIOBus.zoom Board.hostRef)
    interruptController := some Board.controllerRef
    clockedDevices := devices.map BoardDevice.clocked } }

/-- Start an image's process in its initial context: what `createProcess` builds, put on the CPU as
`dispatchNext` does. -/
def startImage {W : Type} (pid : ProcessId) (image : ProcessImage) : Exec Str (CPU W) Unit := do
  let context ← Exec.lift (contextFromImage pid image)
  let addressSpace ← Exec.lift (ProcessAddressSpace.ofImage image)
  addressSpace.activate
  restoreProcessContext context

/-! ## What happens to the caller's devices -/

/-- The devices' world reached from `host` by data accesses to mapped devices inside the User data
window, at the listed addresses, and by ticks. -/
inductive HostRun (bus : Option (MMIOBus H)) (devices : List (BoardDevice H)) (host : H) :
    List ℕ → H → Prop
  | start : HostRun bus devices host [] host
  | read {b : MMIOBus H} {address : ℕ} {log : List ℕ} {reached : H} (hb : bus = some b)
      (hdevice : b.hasDeviceAt address = true) (hwindow : address ≤ 0x1F8)
      (h : HostRun bus devices host log reached) :
      HostRun bus devices host (log ++ [address]) (b.read address reached).2
  | write {b : MMIOBus H} {address : ℕ} {value : Word} {log : List ℕ} {reached : H}
      (hb : bus = some b) (hdevice : b.hasDeviceAt address = true) (hwindow : address ≤ 0x1F8)
      (h : HostRun bus devices host log reached) :
      HostRun bus devices host (log ++ [address]) (b.write address value reached).2
  | tick {device : ClockedDevice H} {log : List ℕ} {reached : H}
      (hdevice : BoardDevice.host device ∈ devices) (h : HostRun bus devices host log reached) :
      HostRun bus devices host log (device.tick reached).2

/-- Every access of a run is one to a device mapped inside the User data window. -/
theorem HostRun.access {bus : Option (MMIOBus H)} {devices : List (BoardDevice H)} {host reached : H}
    {log : List ℕ} (h : HostRun bus devices host log reached) :
    ∀ address ∈ log, address ≤ 0x1F8 ∧ ∃ b, bus = some b ∧ b.hasDeviceAt address = true := by
  induction h with
  | start => simp
  | read hb hdevice hwindow _ ih | write hb hdevice hwindow _ ih =>
    intro address hmem
    rcases List.mem_append.mp hmem with hmem | hmem
    · exact ih address hmem
    · obtain rfl := List.mem_singleton.mp hmem
      exact ⟨hwindow, _, hb, hdevice⟩
  | tick _ _ ih => exact ih

/-- What stays true of the board: nobody has configured the interrupt controller, and the caller's
devices were reached only as `HostRun` says. -/
structure BoardOk (bus : Option (MMIOBus H)) (devices : List (BoardDevice H)) (board reached : Board H) :
    Prop where
  vectors : reached.controller.vectorTable = board.controller.vectorTable
  masks : reached.controller.masks = board.controller.masks
  enabled : reached.controller.globalEnabled = board.controller.globalEnabled
  host : ∃ log, HostRun bus devices board.host log reached.host

section

variable {bus : Option (MMIOBus H)} {devices : List (BoardDevice H)} {board : Board H}

/-- A read from a low device is allowed. -/
theorem keeps_boardOk_read {b : MMIOBus H} (hb : bus = some b) {address : ℕ}
    (hdevice : b.hasDeviceAt address = true) (hle : address + 8 ≤ 512) :
    Keeps (BoardOk bus devices board) (Exec.zoom Board.hostRef (b.read address)) := by
  rintro reached ⟨hv, hm, he, log, hrun⟩
  exact ⟨hv, hm, he, _, .read hb hdevice (by omega) hrun⟩

/-- A write to a low device is allowed. -/
theorem keeps_boardOk_write {b : MMIOBus H} (hb : bus = some b) {address : ℕ} (value : Word)
    (hdevice : b.hasDeviceAt address = true) (hle : address + 8 ≤ 512) :
    Keeps (BoardOk bus devices board) (Exec.zoom Board.hostRef (b.write address value)) := by
  rintro reached ⟨hv, hm, he, log, hrun⟩
  exact ⟨hv, hm, he, _, .write hb hdevice (by omega) hrun⟩

/-- A tick of the timer may queue a request, and changes nothing else of the controller. -/
theorem timer_tick_controller (s : TimerDevice × InterruptController) :
    (TimerDevice.tick s).2.2.vectorTable = s.2.vectorTable
      ∧ (TimerDevice.tick s).2.2.masks = s.2.masks
      ∧ (TimerDevice.tick s).2.2.globalEnabled = s.2.globalEnabled := by
  obtain ⟨timer, controller⟩ := s
  simp only [TimerDevice.tick, TimerDevice.maybeRequestInterrupt, bind_apply, get_apply,
    require_apply, modify_apply]
  by_cases hover : timer.tickCount != BitVec.allOnes 64
  · simp only [hover, if_true]
    split_ifs
    all_goals exact ⟨rfl, rfl, rfl⟩
  · simp only [hover]
    exact ⟨rfl, rfl, rfl⟩

/-- A tick of a device of the board is allowed. -/
theorem keeps_boardOk_tick {device : BoardDevice H} (hmem : device ∈ devices) :
    Keeps (BoardOk bus devices board) device.clocked.tick := by
  rintro reached ⟨hv, hm, he, log, hrun⟩
  cases device with
  | host device => exact ⟨hv, hm, he, log, .tick hmem hrun⟩
  | timer =>
    obtain ⟨htv, htm, hte⟩ := timer_tick_controller (reached.timer, reached.controller)
    exact ⟨htv.trans hv, htm.trans hm, hte.trans he, log, hrun⟩

/-- What a process of the image must leave alone on a connected CPU: everything outside the User
data window and the User stack. -/
def processConfinement (image : ProcessImage) (bus : Option (MMIOBus H))
    (devices : List (BoardDevice H)) (board : Board H) : Confinement (Board H) where
  len := image.executable.code.length
  frozen := fun i => 512 ≤ i ∧ (i < 2048 ∨ 4000 ≤ i)
  memory := image.memory
  worldOk := BoardOk bus devices board

/-- The confinement of a process fits its CPU. -/
theorem processConfinement_fits (bus : Option (MMIOBus H)) (devices : List (BoardDevice H))
    {image : ProcessImage} (hv : ValidImage image) (hvec : ∀ vector, board.controller.vectorTable vector = none) :
    (processConfinement image bus devices board).Fits
      (loadedSetup (connectedCpu board bus devices).setup image) where
  toUserSetup := userSetup_loadedSetup hv _
  frozen_outside := fun _ h => h
  bus_read := by
    intro zoomed hbus address hdevice hle
    obtain ⟨b, hb, rfl⟩ := Option.map_eq_some_iff.mp hbus
    rw [MMIOBus.hasDeviceAt_zoom] at hdevice
    rw [MMIOBus.read_zoom]
    exact keeps_boardOk_read hb hdevice hle
  bus_write := by
    intro zoomed hbus address value hdevice hle
    obtain ⟨b, hb, rfl⟩ := Option.map_eq_some_iff.mp hbus
    rw [MMIOBus.hasDeviceAt_zoom] at hdevice
    rw [MMIOBus.write_zoom]
    exact keeps_boardOk_write hb value hdevice hle
  tick := by
    intro device hmem
    obtain ⟨boardDevice, hboard, rfl⟩ := List.mem_map.mp hmem
    exact keeps_boardOk_tick hboard
  no_vector := by
    intro r hr reached hreached vector
    obtain rfl := Option.some.inj hr
    show reached.controller.vectorTable vector = none
    rw [hreached.vectors]
    exact hvec vector

end

/-! ## Starting an image -/

/-- The context `createProcess` gives an image's process. -/
def initialContext (pid : ProcessId) (image : ProcessImage) : ProcessContext where
  pid := pid
  registers := image.initial_registers
  flags := image.initial_flags
  pc := image.initial_pc
  sp := image.initial_sp
  privilege := image.initial_privilege
  has_user_code_range := true
  user_code_begin := image.metadata.code_base
  user_code_end_exclusive := image.metadata.code_end_exclusive
  user_stack_begin := image.metadata.user_stack_begin
  user_stack_end_exclusive := image.metadata.user_stack_end_exclusive
  kernel_stack_pointer := image.initial_kernel_stack_pointer

/-- The first context of a process can be restored. -/
theorem savedContext_initialContext {image : ProcessImage} (hv : ValidImage image) {pid : ProcessId}
    (hpid : pid ≠ 0) : SavedContext image (initialContext pid image) where
  pid := hpid
  privilege := hv.privilege
  has_range := rfl
  range_begin := hv.code_base
  range_end := hv.code_end
  stack_begin := hv.user_stack.1
  stack_end := hv.user_stack.2
  kernel_sp := hv.kernel_sp
  sp_ge := by show 2048 ≤ image.initial_sp; rw [hv.sp]
  sp_le := by show image.initial_sp ≤ 4000; rw [hv.sp]; omega
  sp_aligned := by show image.initial_sp % 8 = 0; rw [hv.sp]
  pc_ge := by show 512 ≤ image.initial_pc; rw [hv.pc]; omega
  pc_le := by
    have := hv.entry_lt
    show image.initial_pc ≤ _
    rw [hv.pc]
    omega
  pc_aligned := by
    have := hv.entry_aligned
    show image.initial_pc % 24 = 512 % 24
    rw [hv.pc]
    omega

theorem savedMemory_image {image : ProcessImage} (hv : ValidImage image) :
    SavedMemory image image.memory := ⟨hv.memory_size, fun _ _ _ => rfl⟩

/-- The context of an image is valid whatever non-zero PID it gets. -/
theorem contextFromImage_eq {image : ProcessImage} (hv : ValidImage image) {pid : ProcessId}
    (hpid : pid ≠ 0) : contextFromImage pid image = .ok (initialContext pid image) := by
  have hlt : (initialContext pid image).pc < 512 + image.executable.code.length := by
    have := hv.entry_lt
    show image.initial_pc < _
    rw [hv.pc]
    omega
  have hctx := (savedContext_initialContext hv hpid).validate_ok hv hlt
  rw [contextFromImage, hv.validated, ok_bind]
  exact (congrArg (· >>= fun _ => pure (initialContext pid image)) hctx).trans rfl

/-- The address space of a valid image. -/
theorem ofImage_eq {image : ProcessImage} (hv : ValidImage image) :
    ProcessAddressSpace.ofImage image = .ok (spaceOf image image.memory) := by
  have hvalid := validate_spaceOf hv (savedMemory_image hv)
  rw [ProcessAddressSpace.ofImage, hv.validated, ok_bind]
  exact (congrArg (· >>= fun _ => pure (spaceOf image image.memory)) hvalid).trans rfl

/-- The first PC of a process is inside its code. -/
theorem initialContext_pc_lt {image : ProcessImage} (hv : ValidImage image) (pid : ProcessId) :
    (initialContext pid image).pc < 512 + image.executable.code.length := by
  have := hv.entry_lt
  show image.initial_pc < _
  rw [hv.pc]
  omega

/-- An activatable image starts, and a started process is the initial context and memory of its
image on the CPU. -/
theorem startImage_eq {W : Type} {cpu : CPU W} {image : ProcessImage} (hv : ValidImage image)
    (ha : Activatable image) {pid : ProcessId} (hpid : pid ≠ 0)
    (hsize : cpu.core.state.memory.size = 4096) :
    startImage pid image cpu
      = (.ok (), resumedCpu cpu image (initialContext pid image) image.memory) := by
  simp only [startImage, bind_apply, lift_apply, contextFromImage_eq hv hpid, ofImage_eq hv,
    activate_eq cpu hv ha (savedMemory_image hv) hsize]
  exact restoreProcessContext_eq cpu hv (savedContext_initialContext hv hpid)
    (initialContext_pc_lt hv pid) image.memory

/-- A process has a non-zero PID. -/
theorem contextFromImage_zero (image : ProcessImage) :
    ∃ e, contextFromImage 0 image = .error e := by
  unfold contextFromImage
  rcases validateProcessImage image with e | u
  · exact ⟨e, rfl⟩
  · exact ⟨_, rfl⟩

/-- An image that starts has a process number and can be activated. -/
theorem startImage_inv {W : Type} {image : ProcessImage} (hv : ValidImage image) {pid : ProcessId}
    {cpu started : CPU W} (h : startImage pid image cpu = (.ok (), started)) :
    pid ≠ 0 ∧ Activatable image := by
  have hpid : pid ≠ 0 := by
    rintro rfl
    obtain ⟨e, he⟩ := contextFromImage_zero image
    simp only [startImage, bind_apply, lift_apply, he] at h
    exact absurd (Prod.ext_iff.mp h).1 (by simp)
  refine ⟨hpid, ?_⟩
  by_contra ha
  obtain ⟨e, hact⟩ := activate_error cpu hv ha image.memory
  simp only [startImage, bind_apply, lift_apply, contextFromImage_eq hv hpid, ofImage_eq hv,
    hact] at h
  exact absurd (Prod.ext_iff.mp h).1 (by simp)

/-! ## Confinement -/

/-- In every state that any number of steps reaches, a started process is in User mode with its code
intact, memory outside the User data window and the User stack has its initial bytes, the only
devices accessed are those mapped inside the data window (none, when none is mapped there), the
interrupt controller is enabled or disabled as it was, SP is on the User stack and PC is an
instruction boundary. -/
theorem user_mode_confinement [LongDouble] (image : ProcessImage)
    (hvalid : validateProcessImage image = .ok ()) (pid : ProcessId) (board : Board H)
    (hvectors : ∀ vector, board.controller.vectorTable vector = none) (bus : Option (MMIOBus H))
    (devices : List (BoardDevice H)) (started : CPU (Board H))
    (hstart : startImage pid image (connectedCpu board bus devices) = (.ok (), started)) (n : ℕ) :
    let core := (CPU.steps n started).core
    core.state.privilegeLevel = .user
      ∧ core.state.memory.slice image.metadata.code_base image.metadata.code_size
        = image.executable.code
      ∧ (∀ i, ¬ i < 0x200 → ¬ (0x800 ≤ i ∧ i < 0xFA0) →
        core.state.memory.byteAt i = started.core.state.memory.byteAt i)
      ∧ (∃ accesses, HostRun bus devices board.host accesses core.world.host
        ∧ ((∀ b, bus = some b → ∀ address ≤ 0x1F8, b.hasDeviceAt address = false) → accesses = []))
      ∧ core.world.controller.globalEnabled = board.controller.globalEnabled
      ∧ (core.state.sp % 8 = 0 ∧ 0x800 ≤ core.state.sp ∧ core.state.sp ≤ 0xFA0)
      ∧ (image.metadata.code_base ≤ core.state.pc
        ∧ core.state.pc ≤ image.metadata.code_end_exclusive
        ∧ (core.state.pc - image.metadata.code_base) % 24 = 0) := by
  intro core
  have hv := validateProcessImage_eq_ok.mp hvalid
  obtain ⟨hpid, ha⟩ := startImage_inv hv hstart
  have hsize : (connectedCpu board bus devices).core.state.memory.size = 4096 := Memory.size_ofSize 4096
  have hstarted : resumedCpu (connectedCpu board bus devices) image (initialContext pid image)
      image.memory = started :=
    congrArg Prod.snd ((startImage_eq hv ha hpid hsize).symm.trans hstart)
  have hmem : started.core.state.memory = image.memory := by rw [← hstarted]; rfl
  -- The whole run keeps the process inside its confinement.
  have hfits := processConfinement_fits bus devices hv hvectors
  have hcontext : UserContext (processConfinement image bus devices board) started.core := by
    rw [← hstarted]
    have hboard : BoardOk bus devices board board := ⟨rfl, rfl, rfl, [], .start⟩
    have h := userRunning_resumedCpu (connectedCpu board bus devices)
      (savedContext_initialContext hv hpid) (savedMemory_image hv) hboard
    exact { h.toUserContext with memory := fun _ _ => rfl }
  have h : UserContext (processConfinement image bus devices board) core :=
    CPU.steps_confined hfits rfl n (by rw [← hstarted]; rfl) hcontext
  have hcode : SavedMemory image core.state.memory :=
    ⟨h.memory_size, fun i h1 h2 => h.memory i ⟨h1, .inl h2⟩⟩
  refine ⟨h.privilege, ?_, ?_, ?_, h.world.enabled, ⟨h.sp_aligned, h.sp_ge, h.sp_le⟩, ?_⟩
  · rw [hv.code_base, hv.code_size]
    exact hcode.slice_code hv
  · intro i h1 h2
    rw [hmem]
    exact h.memory i ⟨by omega, by omega⟩
  · obtain ⟨log, hrun⟩ := h.world.host
    refine ⟨log, hrun, fun hnone => List.eq_nil_iff_forall_not_mem.mpr fun address hmem => ?_⟩
    obtain ⟨hwindow, b, hb, hdevice⟩ := hrun.access address hmem
    rw [hnone b hb address hwindow] at hdevice
    exact absurd hdevice (by simp)
  · have hge := h.pc_ge
    have hle := h.pc_le
    have hal := h.pc_aligned
    rw [hv.code_base, hv.code_end]
    exact ⟨hge, hle, by omega⟩

/-- The executable of one instruction. -/
def oneInstruction (instruction : Instruction) : BinaryProgram where
  header := { code_size := 24 }
  code := (InstructionEncoder.encodeProgram [instruction] []).toOption.getD []

/-- `LOAD R0, [0]` as an executable. -/
def loadFirstWord : BinaryProgram := oneInstruction ⟨.LOAD, .register .R0, .memoryAddress 0⟩

/-- The executable can be loaded. -/
theorem loadable_loadFirstWord : Loadable loadFirstWord where
  supported := by decide
  little := by decide
  header_code_size := by decide
  header_data_size := by decide
  code_pos := by decide
  code_le := by decide
  code_aligned := by decide
  entry_lt := by decide
  entry_aligned := by decide
  data_le := by decide
  legacy_data := by decide

/-- A board whose host counts the accesses to its device. -/
def countingBoard : Board ℕ where
  host := 0
  timer := ⟨240, 1, 0, 0, 0, true⟩
  controller := InterruptController.clear

/-- A device at address 0 that counts its reads and writes. -/
def countingBus : MMIOBus ℕ where
  mappings := [{
    base := 0
    size := 8
    device :=
      { name := Str.ofString "counter"
        read := fun _ => do Exec.modify (· + 1); pure 0
        write := fun _ _ => Exec.modify (· + 1) } }]

/-- A valid image's first instruction reads a device mapped at address 0. -/
theorem user_mode_reaches_low_device :
    letI : LongDouble := LongDouble.x87
    let image := imageOf loadFirstWord (Str.ofString "load")
    let start := startImage 1 image (connectedCpu countingBoard (some countingBus) [])
    validateProcessImage image = .ok () ∧ start.1.toOption = some ()
      ∧ countingBoard.controller.vectorTable = (fun _ => none)
      ∧ start.2.core.world.host = 0 ∧ (CPU.steps 1 start.2).core.world.host = 1 := by
  refine ⟨(loadable_loadFirstWord.validImage (by decide)).validated, ?_, rfl, ?_, ?_⟩
  · decide +kernel
  · decide +kernel
  · decide +kernel

/-- The counter above RAM, where no User access reaches it. -/
def highBus : MMIOBus ℕ where
  mappings := countingBus.mappings.map fun mapping =>
    { mapping with base := kHardwareBase, size := kHardwareSize }

/-- The process loads its word from memory and runs into the end of its code, with a counter on the bus
and the timer on the clock. -/
theorem user_mode_confinement_loadFirstWord :
    letI : LongDouble := LongDouble.x87
    let image := imageOf loadFirstWord (Str.ofString "load")
    let started := (startImage 1 image (connectedCpu countingBoard (some highBus) [.timer])).2
    let core := (CPU.steps 3 started).core
    core.state.privilegeLevel = .user
      ∧ core.state.memory.slice image.metadata.code_base image.metadata.code_size
        = image.executable.code
      ∧ (∀ i, ¬ i < 0x200 → ¬ (0x800 ≤ i ∧ i < 0xFA0) →
        core.state.memory.byteAt i = started.core.state.memory.byteAt i)
      ∧ HostRun (some highBus) [.timer] 0 [] core.world.host
      ∧ core.world.controller.globalEnabled = countingBoard.controller.globalEnabled
      ∧ (core.state.sp % 8 = 0 ∧ 0x800 ≤ core.state.sp ∧ core.state.sp ≤ 0xFA0)
      ∧ (image.metadata.code_base ≤ core.state.pc
        ∧ core.state.pc ≤ image.metadata.code_end_exclusive
        ∧ (core.state.pc - image.metadata.code_base) % 24 = 0) := by
  intro image started core
  have hname : Str.ofString "load" ≠ [] := by decide
  have hv : ValidImage image := loadable_loadFirstWord.validImage hname
  have hsize : (connectedCpu countingBoard (some highBus) [.timer]).core.state.memory.size = 4096 :=
    Memory.size_ofSize 4096
  have h := startImage_eq hv (fun _ => rfl) Nat.one_ne_zero hsize
  have hstart : startImage 1 image (connectedCpu countingBoard (some highBus) [.timer])
      = (.ok (), started) := h.trans (congrArg (Prod.mk _) (congrArg Prod.snd h).symm)
  obtain ⟨hprivilege, hcode, hmemory, ⟨accesses, hrun, hnone⟩, hrest⟩ :=
    @user_mode_confinement _ LongDouble.x87 image hv.validated 1 countingBoard (fun _ => rfl)
      (some highBus) [.timer] started hstart 3
  refine ⟨hprivilege, hcode, hmemory, ?_, hrest⟩
  have hhigh : ∀ address ≤ 0x1F8, highBus.hasDeviceAt address = false := by
    intro address hle
    have hbelow : ¬ kHardwareBase ≤ address := by
      rw [kHardwareBase]
      omega
    simp [highBus, countingBus, MMIOBus.hasDeviceAt, MMIOMapping.contains, hbelow]
  obtain rfl := hnone fun b hb address hle => by
    obtain rfl := Option.some.inj hb
    exact hhigh address hle
  exact hrun

end ZeroCpu.Kernel
