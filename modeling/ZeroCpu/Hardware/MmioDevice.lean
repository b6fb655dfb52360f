import ZeroCpu.Core.Worlds
import ZeroCpu.Hardware.LineAccesses
import ZeroCpu.Kernel.Syscalls

/-!
# The CPU in front of the line

Reference: `src/hardware/HardwareMMIODevice.cpp`.

The hardware device shows the registers of a hardware bus to the CPU. On the serial bus in front of the
ESP32 bridge, a program runs as it does in front of the registers themselves: in either mode, with or
without the protected system calls, and whatever other devices there are.
-/

namespace ZeroCpu.Hardware

open Library Exec Kernel Firmware SerialLine

variable {H H' D : Type}

/-! ## The device -/

namespace HardwareMMIODevice

/-- The check that an access is aligned and inside the window. -/
def validateOffset (offset : ℕ) : Exec Str H Unit := do
  Exec.require (decide (offset < MemoryMap.kHardwareSize))
    "Hardware MMIO offset is outside the hardware window"
  Exec.require (decide (offset % MemoryMap.kHardwareRegisterWidth = 0))
    "Hardware MMIO offset must be 8-byte aligned"

variable (bus : HardwareBus H)

/-- The check that the bus is connected. -/
def requireConnected : Exec Str H Unit := do
  Exec.require (bus.connected (← Exec.get)) "Hardware MMIO access requires a connected bus"

/-- A read of a register through the bus. -/
def read (offset : ℕ) : Exec Str H Word := do
  validateOffset offset
  requireConnected bus
  bus.readRegister (Word.ofSize offset)

/-- A write of a register through the bus. -/
def write (offset : ℕ) (value : Word) : Exec Str H Unit := do
  validateOffset offset
  requireConnected bus
  bus.writeRegister (Word.ofSize offset) value

/-- The device in front of a bus of the given name. -/
def device (busName : Str) : MMIODevice H where
  name := "HardwareBridge(" ++ busName ++ ")"
  read := read bus
  write := write bus

end HardwareMMIODevice

/-! ## The machine -/

/-- The hardware in a world that holds other devices too. -/
def hardwareRef : Ref (H × D) H where
  get := Prod.fst
  set hardware world := (hardware, world.2)
  get_set _ _ := rfl
  set_get _ := rfl
  set_set _ _ _ := rfl

/-- What is not the hardware. -/
def othersRef : Ref (H × D) D where
  get := Prod.snd
  set others world := (world.1, others)
  get_set _ _ := rfl
  set_get _ := rfl
  set_set _ _ _ := rfl

/-- A bus with nothing but the hardware device. -/
def hardwareWindow (bus : HardwareBus H) (busName : Str) : ZeroCpu.MMIOBus H where
  mappings := [{
    base := MemoryMap.kHardwareBase
    size := MemoryMap.kHardwareSize
    device := HardwareMMIODevice.device bus busName }]

/-- The hardware device mapped behind the devices that are there already. -/
def withHardware (bus : HardwareBus H) (busName : Str) (others : Option (ZeroCpu.MMIOBus D)) :
    ZeroCpu.MMIOBus (H × D) where
  mappings := (others.elim [] fun others => (others.zoom othersRef).mappings)
    ++ ((hardwareWindow bus busName).zoom hardwareRef).mappings

/-- A CPU with the hardware device, next to the devices that it has. The protected system calls are
there if they are given a file system. -/
def attach (bus : HardwareBus H) (busName : Str) (filesystem : Option (Ref D Sys.ZeroFS)) (hardware : H)
    (cpu : CPU D) : CPU (H × D) where
  setup :=
    { program := cpu.setup.program
      labels := cpu.setup.labels
      hasBinaryProgram := cpu.setup.hasBinaryProgram
      binaryCodeBase := cpu.setup.binaryCodeBase
      binaryEntryPoint := cpu.setup.binaryEntryPoint
      binaryCodeSize := cpu.setup.binaryCodeSize
      hasUserCodeRange := cpu.setup.hasUserCodeRange
      userCodeBegin := cpu.setup.userCodeBegin
      userCodeEndExclusive := cpu.setup.userCodeEndExclusive
      mmioBus := some (withHardware bus busName cpu.setup.mmioBus)
      interruptController := cpu.setup.interruptController.map othersRef.inside
      softwareInterruptHandler :=
        filesystem.map fun filesystem => protectedSyscallDispatcher (othersRef.inside filesystem)
      clockedDevices := cpu.setup.clockedDevices.map fun device =>
        { name := device.name, tick := Exec.zoom othersRef device.tick } }
  core :=
    { state := cpu.core.state
      kernelStackPointer := cpu.core.kernelStackPointer
      usingKernelInterruptStack := cpu.core.usingKernelInterruptStack
      softwareInterruptObservation := cpu.core.softwareInterruptObservation
      processExitRequest := cpu.core.processExitRequest
      world := (hardware, cpu.core.world) }
  trace := cpu.trace

/-! ## Buses that cannot be told apart -/

/-- Two hardware buses that no access tells apart. -/
structure HardwareBus.Alike (R : H → H' → Prop) (bus : HardwareBus H) (bus' : HardwareBus H') :
    Prop where
  connected : ∀ s t, R s t → bus.connected s = bus'.connected t
  readRegister : ∀ offset, Exec.Alike R (bus.readRegister offset) (bus'.readRegister offset)
  writeRegister : ∀ offset value,
    Exec.Alike R (bus.writeRegister offset value) (bus'.writeRegister offset value)

/-- The hardware is related, and all else is the same. -/
def Among (R : H → H' → Prop) (world : H × D) (world' : H' × D) : Prop :=
  R world.1 world'.1 ∧ world.2 = world'.2

section Devices

variable {R : H → H' → Prop} {bus : HardwareBus H} {bus' : HardwareBus H'}

theorem alike_validateOffset (offset : ℕ) :
    Exec.Alike R (HardwareMMIODevice.validateOffset offset) (HardwareMMIODevice.validateOffset offset) :=
  (Alike.require _ _).bind fun _ => .require _ _

/-- Alike buses are connected together. -/
theorem alike_requireConnected (h : HardwareBus.Alike R bus bus') :
    Exec.Alike R (HardwareMMIODevice.requireConnected bus) (HardwareMMIODevice.requireConnected bus') := by
  refine .read fun s t hst => ?_
  rw [h.connected s t hst]
  exact .require _ _

/-- The windows of alike buses are alike. -/
theorem alike_hardwareWindow (h : HardwareBus.Alike R bus bus') (busName busName' : Str) :
    List.Forall₂ (MMIOMapping.Alike R) (hardwareWindow bus busName).mappings
      (hardwareWindow bus' busName').mappings := by
  refine .cons ⟨rfl, rfl, fun offset => ?_, fun offset value => ?_⟩ .nil
  · exact (alike_validateOffset offset).bind fun _ => (alike_requireConnected h).bind fun _ =>
      h.readRegister _
  · exact (alike_validateOffset offset).bind fun _ => (alike_requireConnected h).bind fun _ =>
      h.writeRegister _ value

/-- What does not see the hardware is the same on both sides. -/
theorem alike_zoom_others {α : Type} (x : Exec Str D α) :
    Exec.Alike (Among R) (Exec.zoom othersRef x) (Exec.zoom othersRef x) :=
  (Alike.refl x).zoom (fun _ _ hst => hst.2) fun _ _ _ _ hst hab => ⟨hst.1, hab⟩

/-- What does not see the hardware stays the same inside it. -/
theorem alike_inside {τ : Type} (r : Ref D τ) :
    Ref.Alike (Among R) (othersRef.inside r) (othersRef.inside r) where
  get _ _ h := congrArg r.get h.2
  set _ _ value h := ⟨h.1, congrArg (r.set value) h.2⟩

/-- Alike hardware next to the same devices is alike. -/
theorem alike_withHardware (h : HardwareBus.Alike R bus bus') (busName busName' : Str)
    (others : Option (ZeroCpu.MMIOBus D)) : List.Forall₂ (MMIOMapping.Alike (Among R))
      (withHardware bus busName others).mappings (withHardware bus' busName' others).mappings := by
  refine List.rel_append ?_ ?_
  · cases others with
    | none => exact .nil
    | some others =>
      exact forall₂_zoom (forall₂_alike_refl others) (fun _ _ hst => hst.2)
        fun _ _ _ _ hst hab => ⟨hst.1, hab⟩
  · exact forall₂_zoom (alike_hardwareWindow h busName busName') (fun _ _ hst => hst.1)
      fun _ _ _ _ hst hab => ⟨hab, hst.2⟩

/-! ### The protected system calls -/

variable {W W' : Type} {S : W → W' → Prop}

theorem alike_getRegister (reg : RegisterName) :
    Exec.Alike (Beside S) (getRegister reg : Service W Word) (getRegister reg) :=
  .gets fun _ _ h => congrArg (fun state : CPUState => state.registers reg) h.1

/-- Setting a register depends on no world. -/
theorem alike_putRegister (reg : RegisterName) (value : Word) :
    Exec.Alike (Beside S) (putRegister reg value : Service W Unit) (putRegister reg value) :=
  .modify fun _ _ h =>
    ⟨congrArg (fun state : CPUState => { state with registers := state.registers.set reg value }) h.1, h.2⟩

theorem alike_finishSyscall (result : SoftwareInterruptResult) :
    Exec.Alike (Beside S) (finishSyscall result : Service W _) (finishSyscall result) :=
  (alike_putRegister _ _).bind fun _ => .pure _

theorem alike_exitService : Exec.Alike (Beside S) (exitService : Service W _) exitService :=
  (alike_getRegister _).bind fun _ => (alike_putRegister _ _).bind fun _ => .pure _

/-- Operations that are alike on the worlds are alike next to the same state. -/
theorem alike_zoom_worldRef {α : Type} {x : Exec Str W α} {y : Exec Str W' α} (h : Exec.Alike S x y) :
    Exec.Alike (Beside S) (Exec.zoom hardwareWrite.worldRef x) (Exec.zoom hardwareWrite.worldRef y) :=
  h.zoom (fun _ _ hst => hst.2) fun _ _ _ _ hst hab => ⟨hst.1, hab⟩

/-- The hardware services are alike on alike buses. -/
theorem alike_hardwareService {bus : Option (ZeroCpu.MMIOBus W)} {bus' : Option (ZeroCpu.MMIOBus W')}
    (h : Option.Rel (MMIOBus.Alike S) bus bus') (serviceNumber : Word) :
    Exec.Alike (Beside S) (hardwareService serviceNumber bus) (hardwareService serviceNumber bus') := by
  refine (alike_getRegister _).bind fun offset => ?_
  cases validHardwareOffset offset with
  | false => exact .pure _
  | true =>
    cases h with
    | none => exact .pure _
    | @some bus bus' hbus =>
      dsimp only [Bool.not_true]
      rw [hbus.hasDeviceAt]
      cases bus'.hasDeviceAt (MemoryMap.kHardwareBase + offset.toNat) with
      | false => exact .pure _
      | true =>
        by_cases hwrite : serviceNumber = ABI.kHardwareWriteSyscall
        · simp only [hwrite, if_true]
          refine (alike_getRegister _).bind fun value => Alike.bind
            (alike_zoom_worldRef (hbus.write _ value)).attempt fun outcome => ?_
          cases outcome with
          | ok u => exact .pure _
          | error e => exact .pure _
        · simp only [if_neg hwrite]
          refine Alike.bind (alike_zoom_worldRef (hbus.read _)).attempt fun outcome => ?_
          cases outcome with
          | ok value => exact (alike_putRegister _ value).bind fun _ => .pure _
          | error e => exact .pure _

/-- The services of the file system are alike on alike worlds. -/
theorem alike_onFilesystem {r : Ref W Sys.ZeroFS} {r' : Ref W' Sys.ZeroFS} (h : Ref.Alike S r r')
    (x : Service Sys.ZeroFS SoftwareInterruptResult) :
    Exec.Alike (Beside S) (Exec.zoom (onFilesystem r) x) (Exec.zoom (onFilesystem r') x) := by
  refine (Alike.refl x).zoom (fun s t hst => ?_) fun s t a b hst hab => ?_
  · exact Prod.ext hst.1 (h.get _ _ hst.2)
  · subst hab
    exact ⟨rfl, h.set _ _ _ hst.2⟩

/-- The dispatcher reaches the world through the bus and its file system only. -/
theorem alike_protectedSyscallDispatcher {r : Ref W Sys.ZeroFS} {r' : Ref W' Sys.ZeroFS}
    (h : Ref.Alike S r r') {bus : Option (ZeroCpu.MMIOBus W)} {bus' : Option (ZeroCpu.MMIOBus W')}
    (hbus : Option.Rel (MMIOBus.Alike S) bus bus') : SoftwareInterruptHandler.Alike S bus bus'
      (protectedSyscallDispatcher r) (protectedSyscallDispatcher r') where
  handles _ := rfl
  handle vector := by
    dsimp only [protectedSyscallDispatcher]
    split_ifs
    · exact alike_finishSyscall _
    · refine (alike_getRegister _).bind fun serviceNumber => ?_
      simp only [findService]
      split_ifs
      · exact alike_exitService.bind fun _ => alike_finishSyscall _
      · exact (alike_hardwareService hbus serviceNumber).bind fun _ => alike_finishSyscall _
      · exact (alike_onFilesystem h _).bind fun _ => alike_finishSyscall _
      · exact alike_finishSyscall _

end Devices

/-! ## Programs -/

/-- Alike hardware can be attached to a CPU. -/
theorem alike_attach {R : H → H' → Prop} {bus : HardwareBus H} {bus' : HardwareBus H'}
    (h : HardwareBus.Alike R bus bus') (busName busName' : Str)
    (filesystem : Option (Ref D Sys.ZeroFS)) {hardware : H} {hardware' : H'}
    (hstart : R hardware hardware') (cpu : CPU D) : CPU.Alike (Among R)
      (attach bus busName filesystem hardware cpu) (attach bus' busName' filesystem hardware' cpu) := by
  have hbus := MMIOBus.Alike.of_mappings (alike_withHardware h busName busName' cpu.setup.mmioBus)
  refine ⟨⟨rfl, rfl, rfl, rfl, rfl, rfl, rfl, rfl, .some hbus, ?_, ?_, ?_⟩,
    ⟨rfl, rfl, rfl, rfl, rfl, hstart, rfl⟩, rfl⟩
  · show Option.Rel _ (cpu.setup.interruptController.map _) (cpu.setup.interruptController.map _)
    cases cpu.setup.interruptController with
    | none => exact .none
    | some r => exact .some (alike_inside r)
  · show Option.Rel _ (filesystem.map _) (filesystem.map _)
    cases filesystem with
    | none => exact .none
    | some r => exact .some (alike_protectedSyscallDispatcher (alike_inside r) (.some hbus))
  · refine List.forall₂_map_left_iff.mpr (List.forall₂_map_right_iff.mpr (List.forall₂_same.mpr ?_))
    exact fun device _ => alike_zoom_others device.tick

/-- Over a port that carries the line, no access tells the serial bus from the registers. -/
theorem alike_bus {S P : Type} {port : SerialPort S} {far : FarEnd S P} (carries : Carries port far)
    (timeout : { timeout : BitVec 32 // timeout ≠ 0 }) :
    HardwareBus.Alike (Behind far) (WindowsSerialTransport.bus port timeout).hardwareBus
      (registerBus far.board) where
  connected _ _ h := h.1
  readRegister offset := .of_outcome fun _ _ h => by
    obtain ⟨result, transport', bridge', hline, hregister, h'⟩ := h.readRegister carries offset
    exact ⟨result, transport', bridge', hline, hregister, h'⟩
  writeRegister offset value := .of_outcome fun _ _ h => by
    obtain ⟨result, transport', bridge', hline, hregister, h'⟩ := h.writeRegister carries offset value
    exact ⟨result, transport', bridge', hline, hregister, h'⟩

end ZeroCpu.Hardware
