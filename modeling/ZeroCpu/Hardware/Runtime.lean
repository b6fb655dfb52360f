import ZeroCpu.Hardware.MmioDevice
import ZeroCpu.System.Residents
import ZeroCpu.System.Worlds

/-!
# The runtime in front of the line

Reference: `src/system/EndToEndShowcase.cpp`, `src/system/MultiProcessRunner.cpp`.

Processes reach the hardware through the protected system calls, which go to the hardware device on the
runner's bus. A multi-process run with the ESP32 bridge at the other end of a serial line is the run
with the registers at hand.
-/

namespace ZeroCpu.Hardware

open Library Exec Kernel Sys Firmware SerialLine

variable {D : Type}

/-- The caller's options with the hardware device on the bus. The protected system calls are there if
they are given a file system. -/
def onHardware {H : Type} (bus : HardwareBus H) (busName : Str) (filesystem : Option (Ref D ZeroFS))
    (options : MultiProcessRunOptions D) : MultiProcessRunOptions (H × D) where
  timer_vector := options.timer_vector
  quantum := options.quantum
  timer_payload := options.timer_payload
  max_lifecycle_steps := options.max_lifecycle_steps
  normal_exit_code := options.normal_exit_code
  fault_exit_code := options.fault_exit_code
  mmio_bus := some (withHardware bus busName options.mmio_bus)
  software_interrupt_handler := filesystem.map fun filesystem =>
    protectedSyscallDispatcher (Board.hostRef.inside (othersRef.inside filesystem))

theorem alike_onHardware {H H' : Type} {R : H → H' → Prop} {bus : HardwareBus H} {bus' : HardwareBus H'}
    (h : HardwareBus.Alike R bus bus') (busName : Str) (filesystem : Option (Ref D ZeroFS))
    (options : MultiProcessRunOptions D) : MultiProcessRunOptions.Alike (Among R)
      (onHardware bus busName filesystem options) (onHardware bus' busName filesystem options) := by
  have hbus : MMIOBus.Alike (Board.Alike (Among (D := D) R))
      ((withHardware bus busName options.mmio_bus).zoom Board.hostRef)
      ((withHardware bus' busName options.mmio_bus).zoom Board.hostRef) :=
    .of_mappings (forall₂_zoom (alike_withHardware h busName busName options.mmio_bus)
      (fun _ _ hst => hst.host) fun _ _ _ _ hst hab => { hst with host := hab })
  refine ⟨rfl, rfl, rfl, rfl, rfl, rfl, .some hbus, ?_⟩
  cases filesystem with
  | none => exact .none
  | some r =>
    refine .some (alike_protectedSyscallDispatcher ⟨fun _ _ hst => ?_, fun _ _ value hst => ?_⟩ (.some hbus))
    · exact congrArg r.get hst.host.2
    · exact { hst with host := ⟨hst.host.1, congrArg (r.set value) hst.host.2⟩ }

/-- Over any port that carries the line, a run in front of it is the run in front of the registers: the
results are equal, and after every number of rounds the line is in order and the registers are the
same. -/
theorem runtime_on_line [LongDouble] {S P : Type} {port : SerialPort S} {far : FarEnd S P}
    (carries : Carries port far) (timeout : { timeout : BitVec 32 // timeout ≠ 0 }) (busName : Str)
    (filesystem : Option (Ref D ZeroFS)) (options : MultiProcessRunOptions D) (others : D)
    (images : List ProcessImage) {transport : WindowsSerialTransport S} {bridge : Bridge P}
    (h : Behind far transport bridge) :
    let bus := (WindowsSerialTransport.bus port timeout).hardwareBus
    let remote := onHardware bus busName filesystem options
    let direct := onHardware (registerBus far.board) busName filesystem options
    MultiProcessRunner.runImages (transport, others) images remote
        = MultiProcessRunner.runImages (bridge, others) images direct
      ∧ ∀ rounds s, MultiProcessRunner.boot (transport, others) images remote
            >>= MultiProcessRunner.runLoop rounds = .ok s →
          ∃ t, MultiProcessRunner.boot (bridge, others) images direct
              >>= MultiProcessRunner.runLoop rounds = .ok t
            ∧ s.executionTrace = t.executionTrace
            ∧ s.runtime.board.host.2 = t.runtime.board.host.2
            ∧ Behind far s.runtime.board.host.1 t.runtime.board.host.1 := by
  have hoptions := alike_onHardware (alike_bus carries timeout) busName filesystem options
  have hhost : Among (Behind far) (transport, others) (bridge, others) := ⟨h, rfl⟩
  refine ⟨MultiProcessRunner.alike_runImages hoptions hhost images, fun rounds s hs => ?_⟩
  have hrun := (MultiProcessRunner.alike_boot hoptions hhost images).bind
    (f := MultiProcessRunner.runLoop rounds) (g := MultiProcessRunner.runLoop rounds)
    fun _ _ hboot => MultiProcessRunner.alike_runLoop hboot rounds
  rw [hs] at hrun
  generalize MultiProcessRunner.boot (bridge, others) images
    (onHardware (registerBus far.board) busName filesystem options)
    >>= MultiProcessRunner.runLoop rounds = result at hrun ⊢
  cases hrun with
  | @ok _ t hst =>
    have hworld := hst.runtime.cpu.core.world.host
    exact ⟨t, rfl, hst.executionTrace, hworld.2, hworld.1⟩

/-- A process that switches the output pin on, as an image. -/
def switchImage : ProcessImage :=
  Kernel.imageOf {
    header := { code_size := 120 }
    code := (InstructionEncoder.encodeProgram
      [⟨.MOV, .register .R1, .immediate 20⟩, ⟨.MOV, .register .R2, .immediate 0⟩,
        ⟨.MOV, .register .R3, .immediate 1⟩, ⟨.INT, .immediate 80, .none⟩,
        ⟨.NOP, .none, .none⟩] []).toOption.getD [] }
    (Str.ofString "switch")

/-- A process that switches the pin on next to one that makes an unknown call. -/
theorem runtime_on_line_switch :
    letI : LongDouble := LongDouble.x87
    let filesystem : Ref ZeroFS ZeroFS :=
      ⟨id, fun fs _ => fs, fun _ _ => rfl, fun _ => rfl, fun _ _ _ => rfl⟩
    let bus := (WindowsSerialTransport.bus (chattyWiring.port idleBoard) ⟨500, by decide⟩).hardwareBus
    let direct := MultiProcessRunner.runImages ({ pins := () }, freshFilesystem)
      [switchImage, syscallImage]
      (onHardware (registerBus (Wiring.farEnd idleBoard).board) "line" (some filesystem)
        syscallOptions)
    MultiProcessRunner.runImages (⟨true, ⟨[], ⟨[], { pins := () }⟩⟩⟩, freshFilesystem)
        [switchImage, syscallImage] (onHardware bus "line" (some filesystem) syscallOptions) = direct
      ∧ direct.toOption.map (fun result => (result.completed,
          result.software_interrupts.map fun call => (call.pid, call.observation.result.status)))
        = some (true, [(1, some ABI.kStatusOk), (2, some ABI.kStatusUnsupported)]) := by
  have hstart : Behind (Wiring.farEnd idleBoard) ⟨true, ⟨[], ⟨[], { pins := () }⟩⟩⟩ { pins := () } :=
    .mk rfl ⟨rfl, rfl, sameRegisters_refl _⟩
  refine ⟨?_, by decide +kernel⟩
  exact (@runtime_on_line _ LongDouble.x87 _ _ _ _ (chattyWiring.carries idleBoard) ⟨500, by decide⟩
    "line" _ syscallOptions freshFilesystem [switchImage, syscallImage] _ _ hstart).1

end ZeroCpu.Hardware
