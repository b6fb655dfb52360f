import ZeroCpu.Hardware.Messages
import ZeroCpu.Library.Exec

/-!
# Hardware buses

Reference: `src/hardware/SerialHardwareBus.cpp`, `src/hardware/MockSerialTransport.cpp`,
`src/hardware/MockHardwareBus.cpp`, `include/zero_cpu/hardware/HardwareBus.hpp`,
`include/zero_cpu/hardware/SerialTransport.hpp`.

A bus or a transport is the effect that its virtual methods have on a world `W`.
-/

namespace ZeroCpu.Hardware

open Library HardwareProtocol

variable {W : Type}

/-! ## Interfaces -/

/-- `HardwareBus`. -/
structure HardwareBus (W : Type) where
  connected : W → Bool
  connect : Exec Str W Unit
  disconnect : Exec Str W Unit
  readRegister : Word → Exec Str W Word
  writeRegister : Word → Word → Exec Str W Unit

/-- `SerialTransport`. -/
structure SerialTransport (W : Type) where
  connected : W → Bool
  connect : Exec Str W Unit
  disconnect : Exec Str W Unit
  transact : Str → BitVec 32 → Exec Str W Str

/-! ## The serial bus -/

/-- A serial bus always has a timeout. -/
structure SerialHardwareBus (W : Type) where
  transport : SerialTransport W
  timeout_milliseconds : BitVec 32
  timeout_ne_zero : timeout_milliseconds ≠ 0

namespace SerialHardwareBus

/-- `SerialHardwareBus::SerialHardwareBus`; a null pointer is `none`. -/
def make (transport : Option (SerialTransport W)) (timeoutMilliseconds : BitVec 32) :
    Except Str (SerialHardwareBus W) :=
  match transport with
  | none => .error "SerialHardwareBus requires a transport"
  | some transport =>
      if h : timeoutMilliseconds = 0 then
        .error "SerialHardwareBus timeout must be greater than zero"
      else .ok ⟨transport, timeoutMilliseconds, h⟩

variable (bus : SerialHardwareBus W)

/-- `SerialHardwareBus::connected`. -/
def connected (s : W) : Bool := bus.transport.connected s

/-- `SerialHardwareBus::requireConnected`. -/
def requireConnected : Exec Str W Unit := do
  Exec.require (bus.connected (← Exec.get)) "Serial hardware bus is not connected"

/-- One request and the text of its response. -/
def transact (request : Str) : Exec Str W Str :=
  bus.transport.transact request bus.timeout_milliseconds

/-- A request and the parsed response to it. -/
def exchange (request : Str) : Exec Str W HardwareProtocolResponse := do
  let text ← bus.transact request
  Exec.lift (parseResponse text)

/-- The handshake of `connect`. -/
def handshake : Exec Str W Unit := do
  let response ← bus.exchange pingRequest
  if response.type = .Error then
    Exec.throw ("Hardware handshake failed: " ++ response.message : Str)
  else if response.type ≠ .Pong then Exec.throw "Hardware handshake expected PONG"
  else pure ()

/-- `SerialHardwareBus::connect`. -/
def connect : Exec Str W Unit := do
  if bus.connected (← Exec.get) then pure ()
  else
    bus.transport.connect
    Exec.onError bus.handshake bus.transport.disconnect

/-- `SerialHardwareBus::disconnect`. -/
def disconnect : Exec Str W Unit := bus.transport.disconnect

/-- `SerialHardwareBus::readRegister`. -/
def readRegister (offset : Word) : Exec Str W Word := do
  bus.requireConnected
  let response ← bus.exchange (readRequest offset)
  if response.type = .Error then
    Exec.throw ("Hardware read failed: " ++ response.message : Str)
  else if response.type ≠ .Value then Exec.throw "Hardware read expected VALUE response"
  else pure response.value

/-- `SerialHardwareBus::writeRegister`. -/
def writeRegister (offset value : Word) : Exec Str W Unit := do
  bus.requireConnected
  let response ← bus.exchange (writeRequest offset value)
  if response.type = .Error then
    Exec.throw ("Hardware write failed: " ++ response.message : Str)
  else if response.type ≠ .Ok then Exec.throw "Hardware write expected OK response"
  else pure ()

/-- The serial bus as a `HardwareBus`. -/
def hardwareBus : HardwareBus W where
  connected := bus.connected
  connect := bus.connect
  disconnect := bus.disconnect
  readRegister := bus.readRegister
  writeRegister := bus.writeRegister

end SerialHardwareBus

/-! ## The mock transport -/

/-- `registers_`: the registers that have been assigned. -/
abbrev Registers : Type := Word → Option Word

/-- A register that was never assigned reads as zero. -/
def Registers.value (registers : Registers) (offset : Word) : Word := (registers offset).getD 0

/-- Assigning one register. -/
def Registers.set (registers : Registers) (offset value : Word) : Registers :=
  Function.update registers offset (some value)

/-- `MockSerialTransport`. -/
structure MockSerialTransport where
  connected : Bool := false
  timeout_next : Bool := false
  has_next_raw_response : Bool := false
  next_raw_response : Str := []
  registers : Registers := fun _ => none
  requests : List Str := []

namespace MockSerialTransport

/-- The answer of the simulated device to a request that was parsed. -/
def answer (request : HardwareProtocolRequest) : Exec Str MockSerialTransport Str := do
  match request.type with
  | .Ping => pure pongResponse
  | .Read =>
      let transport ← Exec.get
      pure (valueResponse (transport.registers.value request.offset))
  | .Write =>
      Exec.modify fun transport =>
        { transport with registers := transport.registers.set request.offset request.value }
      pure okResponse

def transact (request : Str) (timeoutMilliseconds : BitVec 32) :
    Exec Str MockSerialTransport Str := do
  Exec.require (← Exec.get).connected "Mock serial transport is not connected"
  Exec.require (timeoutMilliseconds != 0) "Serial transaction timeout must be greater than zero"
  Exec.modify fun transport => { transport with requests := transport.requests ++ [request] }
  let transport ← Exec.get
  if transport.timeout_next then
    Exec.modify fun transport => { transport with timeout_next := false }
    Exec.throw "Serial transport timeout"
  else if transport.has_next_raw_response then
    Exec.modify fun transport =>
      { transport with has_next_raw_response := false, next_raw_response := [] }
    pure transport.next_raw_response
  else
    match parseRequest request with
    | .ok parsed => answer parsed
    | .error what => pure (errorResponse what)

/-- The mock as a `SerialTransport`. -/
def serialTransport : SerialTransport MockSerialTransport where
  connected := MockSerialTransport.connected
  connect := Exec.modify fun transport => { transport with connected := true }
  disconnect := Exec.modify fun transport => { transport with connected := false }
  transact := transact

end MockSerialTransport

/-! ## The mock bus -/

/-- `HardwareAccessType`. -/
inductive HardwareAccessType where
  | Read
  | Write
deriving DecidableEq

/-- `HardwareTransaction`. -/
structure HardwareTransaction where
  type : HardwareAccessType
  offset : Word
  value : Word
deriving DecidableEq

/-- `MockHardwareBus`. -/
structure MockHardwareBus where
  name : Str
  connected : Bool := false
  registers : Registers := fun _ => none
  transactions : List HardwareTransaction := []

namespace MockHardwareBus

def requireConnected : Exec Str MockHardwareBus Unit := do
  let bus ← Exec.get
  Exec.require bus.connected ("Hardware bus is not connected: " ++ bus.name : Str)

def readRegister (offset : Word) : Exec Str MockHardwareBus Word := do
  requireConnected
  let value := (← Exec.get).registers.value offset
  Exec.modify fun bus => { bus with transactions := bus.transactions ++ [⟨.Read, offset, value⟩] }
  pure value

def writeRegister (offset value : Word) : Exec Str MockHardwareBus Unit := do
  requireConnected
  Exec.modify fun bus => { bus with registers := bus.registers.set offset value }
  Exec.modify fun bus => { bus with transactions := bus.transactions ++ [⟨.Write, offset, value⟩] }

def hardwareBus : HardwareBus MockHardwareBus where
  connected := MockHardwareBus.connected
  connect := Exec.modify fun bus => { bus with connected := true }
  disconnect := Exec.modify fun bus => { bus with connected := false }
  readRegister := readRegister
  writeRegister := writeRegister

end MockHardwareBus

/-! ## Accesses -/

/-- What a caller may ask of a bus. -/
inductive Access where
  | read (offset : Word)
  | write (offset value : Word)

/-- One access: a read returns its value. -/
def HardwareBus.access (bus : HardwareBus W) : Access → Exec Str W (Option Word)
  | .read offset => do pure (some (← bus.readRegister offset))
  | .write offset value => do
      bus.writeRegister offset value
      pure none

/-- Accesses one after the other, with what each returns or throws. -/
def HardwareBus.accesses (bus : HardwareBus W) :
    List Access → Exec Str W (List (Except Str (Option Word)))
  | [] => pure []
  | access :: rest => do
      let outcome ← Exec.attempt (bus.access access)
      pure (outcome :: (← bus.accesses rest))

end ZeroCpu.Hardware
