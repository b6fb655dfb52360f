import ZeroCpu.Core.Alu
import ZeroCpu.Library.Exec

/-!
# Devices around the CPU

Reference: `src/core/InterruptController.cpp`, `src/core/MMIOBus.cpp`, `src/core/TimerDevice.cpp`,
`include/zero_cpu/core/ClockedDevice.hpp`, `include/zero_cpu/core/SoftwareInterruptHandler.hpp`.

The objects that the CPU and its devices share through `std::shared_ptr` live in a world `W`. A
shared pointer is a `Ref W _` into it, and a device is the effect its virtual methods have on the
world. The CPU model is generic in `W`, so it covers every device a caller may plug in.
-/

namespace ZeroCpu

open Library

variable {W : Type}

/-! ## The interrupt controller -/

/-- `InterruptRequest`. -/
structure InterruptRequest where
  vector : UInt8
  payload : Word
  source : Str
deriving DecidableEq

/-- `InterruptController`. -/
structure InterruptController where
  vectorTable : UInt8 → Option ℕ
  masks : UInt8 → Bool
  pending : List InterruptRequest
  globalEnabled : Bool

namespace InterruptController

/-- `InterruptController::InterruptController`. -/
def clear : InterruptController where
  vectorTable := fun _ => none
  masks := fun _ => false
  pending := []
  globalEnabled := true

/-- `InterruptController::setGlobalEnabled`. -/
def setGlobalEnabled (controller : InterruptController) (enabled : Bool) : InterruptController :=
  { controller with globalEnabled := enabled }

/-- `InterruptController::hasVectorHandler`. -/
def hasVectorHandler (controller : InterruptController) (vector : UInt8) : Bool :=
  (controller.vectorTable vector).isSome

/-- `InterruptController::vectorHandler`. -/
def vectorHandler (controller : InterruptController) (vector : UInt8) : Except Str ℕ :=
  match controller.vectorTable vector with
  | some handler => .ok handler
  | none => .error "Interrupt vector has no handler"

/-- `InterruptController::request`, which appends to the queue. -/
def request (controller : InterruptController) (vector : UInt8) (payload : Word) (source : Str) :
    InterruptController :=
  { controller with pending := controller.pending ++ [⟨vector, payload, source⟩] }

/-- Whether `findDeliverable()` stops at this request. -/
def deliverable (controller : InterruptController) (request : InterruptRequest) : Bool :=
  !controller.masks request.vector && controller.hasVectorHandler request.vector

/-- The oldest request that may be delivered. -/
def findDeliverable (controller : InterruptController) : Option InterruptRequest :=
  if !controller.globalEnabled then none else controller.pending.find? controller.deliverable

/-- `InterruptController::hasPending`. -/
def hasPending (controller : InterruptController) : Bool := controller.findDeliverable.isSome

/-- `acknowledge()`: the first deliverable request leaves the queue. -/
def acknowledge (controller : InterruptController) :
    Except Str (InterruptRequest × InterruptController) :=
  match controller.findDeliverable with
  | none => .error "No deliverable interrupt request"
  | some request =>
      .ok (request, { controller with pending := controller.pending.eraseP controller.deliverable })

/-- Whether a request is from the given source with the given vector. -/
def matching (vector : UInt8) (source : Str) (request : InterruptRequest) : Bool :=
  request.vector == vector && request.source == source

/-- The oldest request of a vector and source that may be delivered. -/
def findDeliverableFrom (controller : InterruptController) (vector : UInt8) (source : Str) :
    Option InterruptRequest :=
  if !controller.globalEnabled || controller.masks vector then none
  else controller.pending.find? (matching vector source)

/-- `InterruptController::hasPendingFrom`. -/
def hasPendingFrom (controller : InterruptController) (vector : UInt8) (source : Str) : Bool :=
  (controller.findDeliverableFrom vector source).isSome

/-- `acknowledge(vector, source)`. -/
def acknowledgeFrom (controller : InterruptController) (vector : UInt8) (source : Str) :
    Except Str (InterruptRequest × InterruptController) :=
  match controller.findDeliverableFrom vector source with
  | none => .error "No matching deliverable interrupt request"
  | some request =>
      .ok (request, { controller with pending := controller.pending.eraseP (matching vector source) })

/-- The handler address is the one the vector table holds. -/
theorem vectorHandler_eq_ok {controller : InterruptController} {vector : UInt8} {handler : ℕ} :
    controller.vectorHandler vector = .ok handler
      ↔ controller.vectorTable vector = some handler := by
  unfold vectorHandler
  cases controller.vectorTable vector <;> simp

/-- Without vector handlers no request is ever deliverable to the CPU. -/
theorem hasPending_of_vectorTable {controller : InterruptController}
    (h : ∀ v, controller.vectorTable v = none) : controller.hasPending = false := by
  have : controller.deliverable = fun _ => false := by
    funext request
    simp [deliverable, hasVectorHandler, h]
  simp [hasPending, findDeliverable, this]

end InterruptController

/-! ## Memory-mapped devices -/

/-- `MMIODevice`. -/
structure MMIODevice (W : Type) where
  name : Str
  read : ℕ → Exec Str W Word
  write : ℕ → Word → Exec Str W Unit

/-- `MMIOMapping`. -/
structure MMIOMapping (W : Type) where
  base : ℕ
  size : ℕ
  device : MMIODevice W

/-- The address after the last one mapped. -/
def MMIOMapping.endExclusive (mapping : MMIOMapping W) : ℕ := mapping.base + mapping.size

/-- The address lies in the mapping. -/
def MMIOMapping.contains (mapping : MMIOMapping W) (address : ℕ) : Bool :=
  decide (address ≥ mapping.base ∧ address < mapping.endExclusive)

/-- `MMIOBus::mappings_`. -/
structure MMIOBus (W : Type) where
  mappings : List (MMIOMapping W)

namespace MMIOBus

/-- `MMIOBus::hasDeviceAt`. -/
def hasDeviceAt (bus : MMIOBus W) (address : ℕ) : Bool :=
  bus.mappings.any fun mapping => mapping.contains address

/-- `MMIOBus::findMapping`. -/
def findMapping (bus : MMIOBus W) (address : ℕ) : Except Str (MMIOMapping W) :=
  match bus.mappings.find? fun mapping => mapping.contains address with
  | some mapping => .ok mapping
  | none => .error "No MMIO device mapped at address"

/-- `MMIOBus::read`. -/
def read (bus : MMIOBus W) (address : ℕ) : Exec Str W Word := do
  let mapping ← Exec.lift (bus.findMapping address)
  mapping.device.read (address - mapping.base)

/-- `MMIOBus::write`. -/
def write (bus : MMIOBus W) (address : ℕ) (value : Word) : Exec Str W Unit := do
  let mapping ← Exec.lift (bus.findMapping address)
  mapping.device.write (address - mapping.base) value

/-- The same bus for devices that live in a part of a larger world. -/
def zoom {W' : Type} (r : Ref W' W) (bus : MMIOBus W) : MMIOBus W' where
  mappings := bus.mappings.map fun mapping =>
    { base := mapping.base
      size := mapping.size
      device :=
        { name := mapping.device.name
          read := fun offset => Exec.zoom r (mapping.device.read offset)
          write := fun offset value => Exec.zoom r (mapping.device.write offset value) } }

/-- Which addresses have a device does not depend on where the devices live. -/
theorem hasDeviceAt_zoom {W' : Type} (r : Ref W' W) (bus : MMIOBus W) (address : ℕ) :
    (bus.zoom r).hasDeviceAt address = bus.hasDeviceAt address := by
  simp only [hasDeviceAt, zoom, List.any_map]
  rfl

/-- The mapping found is the zoomed mapping. -/
theorem findMapping_zoom {W' : Type} (r : Ref W' W) (bus : MMIOBus W) (address : ℕ) :
    (bus.zoom r).mappings.find? (fun mapping => mapping.contains address)
      = (bus.mappings.find? fun mapping => mapping.contains address).map fun mapping =>
        { base := mapping.base
          size := mapping.size
          device :=
            { name := mapping.device.name
              read := fun offset => Exec.zoom r (mapping.device.read offset)
              write := fun offset value => Exec.zoom r (mapping.device.write offset value) } } := by
  simp only [zoom, List.find?_map]
  rfl

/-- An access through the larger world is the access on its part. -/
theorem read_zoom {W' : Type} (r : Ref W' W) (bus : MMIOBus W) (address : ℕ) :
    (bus.zoom r).read address = Exec.zoom r (bus.read address) := by
  funext s
  simp only [read, findMapping, findMapping_zoom, Exec.bind_apply, Exec.lift_apply,
    Exec.zoom_apply]
  cases bus.mappings.find? fun mapping => mapping.contains address with
  | none => simp
  | some mapping => rfl

/-- A write on a zoomed bus is the zoomed write. -/
theorem write_zoom {W' : Type} (r : Ref W' W) (bus : MMIOBus W) (address : ℕ) (value : Word) :
    (bus.zoom r).write address value = Exec.zoom r (bus.write address value) := by
  funext s
  simp only [write, findMapping, findMapping_zoom, Exec.bind_apply, Exec.lift_apply,
    Exec.zoom_apply]
  cases bus.mappings.find? fun mapping => mapping.contains address with
  | none => simp
  | some mapping => rfl

end MMIOBus

/-! ## Clocked devices -/

/-- `ClockedDevice`. -/
structure ClockedDevice (W : Type) where
  name : Str
  tick : Exec Str W Unit

/-- The state of a `TimerDevice`. -/
structure TimerDevice where
  vector : UInt8
  interval : BitVec 64
  tickCount : BitVec 64
  interruptCount : BitVec 64
  payload : Word
  enabled : Bool
deriving DecidableEq

namespace TimerDevice

/-- `TimerDevice::TimerDevice`; its controller is known not to be null. -/
def make (vector : UInt8) (interval : BitVec 64) (payload : Word) : Except Str TimerDevice := do
  reject (interval = 0) "TimerDevice interval must be greater than zero"
  pure {
    vector := vector
    interval := interval
    tickCount := 0
    interruptCount := 0
    payload := payload
    enabled := true }

/-- `TimerDevice::maybeRequestInterrupt`. -/
def maybeRequestInterrupt : Exec Str (TimerDevice × InterruptController) Unit := do
  let (timer, controller) ← Exec.get
  if !timer.enabled then pure ()
  else if timer.interval = 0 then Exec.throw "TimerDevice interval must be greater than zero"
  else if timer.tickCount % timer.interval ≠ 0 then pure ()
  else
    Exec.modify fun _ =>
      ({ timer with interruptCount := timer.interruptCount + 1 },
        controller.request timer.vector timer.payload "timer")

/-- `TimerDevice::tick`. -/
def tick : Exec Str (TimerDevice × InterruptController) Unit := do
  let (timer, _) ← Exec.get
  Exec.require (timer.tickCount != BitVec.allOnes 64) "TimerDevice tick counter overflow"
  Exec.modify fun s => ({ s.1 with tickCount := s.1.tickCount + 1 }, s.2)
  maybeRequestInterrupt

/-- A timer and the controller it holds, plugged into the CPU's clock. -/
def clocked (r : Ref W (TimerDevice × InterruptController)) : ClockedDevice W where
  name := "TimerDevice"
  tick := Exec.zoom r tick

end TimerDevice

/-! ## Host software interrupt handlers -/

/-- `SoftwareInterruptDisposition`. -/
inductive SoftwareInterruptDisposition where
  | ReturnToCaller
  | TerminateProcess
deriving DecidableEq, Repr

/-- `SoftwareInterruptResult`; a `has_` flag with its value is an option. -/
structure SoftwareInterruptResult where
  disposition : SoftwareInterruptDisposition := .ReturnToCaller
  exit_code : Word := 0
  service_number : Option Word := none
  argument0 : Option Word := none
  argument1 : Option Word := none
  status : Option Word := none
  result : Option Word := none
deriving DecidableEq

/-- `SoftwareInterruptObservation`. -/
structure SoftwareInterruptObservation where
  vector : UInt8
  result : SoftwareInterruptResult
deriving DecidableEq

/-- `SoftwareInterruptHandler`: which vectors it takes and what it does to the CPU state and the
world, given the CPU's bus. -/
structure SoftwareInterruptHandler (W : Type) where
  handles : UInt8 → Bool
  handle : UInt8 → Option (MMIOBus W) → Exec Str (CPUState × W) SoftwareInterruptResult

end ZeroCpu
