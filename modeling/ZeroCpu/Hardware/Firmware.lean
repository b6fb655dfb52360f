import ZeroCpu.Hardware.Protocol

/-!
# The ESP32 bridge

Reference: `firmware/esp32/zero_cpu_bridge/zero_cpu_bridge.ino`.

An Arduino `String` is a list of bytes; its `trim` removes what `isspace` accepts. `unsigned long` has
32 bits on the ESP32. A board is the effect that the pins have on a world `W`, and `sent` holds the
lines that were printed.
-/

namespace ZeroCpu.Hardware.Firmware

open Library Assembler

/-! ## The board -/

/-- The pins of the board. -/
def kGpioOutputPin : ℕ := 2
def kGpioInputPin : ℕ := 4
def kPwmOutputPin : ℕ := 5
def kAdcInputPin : ℕ := 1

/-- The register offsets the bridge serves. -/
def kGpioOutputOffset : BitVec 32 := 0
def kGpioInputOffset : BitVec 32 := 8
def kPwmOutputOffset : BitVec 32 := 16
def kAdcInputOffset : BitVec 32 := 24
def kStatusOffset : BitVec 32 := 32
def kCommandOffset : BitVec 32 := 40

/-- The pins of a board. -/
structure Board (W : Type) where
  digitalRead : ℕ → W → Word × W
  analogRead : ℕ → W → Word × W
  digitalWrite : ℕ → Bool → W → W
  analogWrite : ℕ → ℕ → W → W

/-- The variables of the bridge but for its line buffer. -/
structure Bridge (W : Type) where
  gpioOutputValue : Word := 0
  pwmOutputValue : Word := 0
  commandValue : Word := 0
  pins : W
  sent : List Str := []
deriving DecidableEq

variable {W : Type}

/-! ## Responses -/

/-- `Serial.println`. -/
def println (line : Str) (bridge : Bridge W) : Bridge W :=
  { bridge with sent := bridge.sent ++ [line] }

/-- `sendPong`. -/
def sendPong : Bridge W → Bridge W := println "ZEROCPU/1 PONG"

/-- `sendOk`. -/
def sendOk : Bridge W → Bridge W := println "ZEROCPU/1 OK"

/-- `sendValue`. -/
def sendValue (value : Word) : Bridge W → Bridge W :=
  println ("ZEROCPU/1 VALUE " ++ intToStr value.toInt)

/-- `sendError`. -/
def sendError (message : Str) : Bridge W → Bridge W := println ("ZEROCPU/1 ERROR " ++ message)

/-! ## Arguments -/

/-- `c_str()`: the text up to its first null character. -/
def cStr (text : Str) : Str := text.takeWhile fun ch => ch != 0

/-- `parseUnsigned`. -/
def parseUnsigned (text : Str) : Option (BitVec 32) :=
  if text = [] then none
  else
    match scanNumber (cStr text) with
    | some (negative, magnitude, []) =>
        if magnitude < 2 ^ 32 then
          some (if negative then -BitVec.ofNat 32 magnitude else BitVec.ofNat 32 magnitude)
        else none
    | _ => none

/-- `parseSigned`. -/
def parseSigned (text : Str) : Option Word :=
  if text = [] then none
  else
    match scanNumber (cStr text) with
    | some (negative, magnitude, []) =>
        if -2 ^ 63 ≤ signed negative magnitude ∧ signed negative magnitude < 2 ^ 63 then
          some (BitVec.ofInt 64 (signed negative magnitude))
        else none
    | _ => none

/-- The text in front of the first space, and what is behind it, trimmed. -/
def splitOnce (text : Str) : Option (Str × Str) :=
  match text.span fun (ch : UInt8) => ch != ' ' with
  | (_, []) => none
  | (first, _ :: remainder) => some (first, trim remainder)

/-! ## Registers -/

/-- `readRegister`. -/
def readRegister (board : Board W) (offset : BitVec 32) (bridge : Bridge W) :
    Option Word × Bridge W :=
  if offset = kGpioOutputOffset then (some bridge.gpioOutputValue, bridge)
  else if offset = kGpioInputOffset then
    let (value, pins) := board.digitalRead kGpioInputPin bridge.pins
    (some value, { bridge with pins := pins })
  else if offset = kPwmOutputOffset then (some bridge.pwmOutputValue, bridge)
  else if offset = kAdcInputOffset then
    let (value, pins) := board.analogRead kAdcInputPin bridge.pins
    (some value, { bridge with pins := pins })
  else if offset = kStatusOffset then (some 1, bridge)
  else if offset = kCommandOffset then (some bridge.commandValue, bridge)
  else (none, bridge)

/-- `writeRegister`. -/
def writeRegister (board : Board W) (offset : BitVec 32) (value : Word) (bridge : Bridge W) :
    Except Str (Bridge W) :=
  if offset = kGpioOutputOffset then
    .ok { bridge with
      gpioOutputValue := value
      pins := board.digitalWrite kGpioOutputPin (value != 0) bridge.pins }
  else if offset = kGpioInputOffset then .error "GPIO input register is read-only"
  else if offset = kPwmOutputOffset then
    if value.toInt < 0 ∨ value.toInt > 255 then .error "PWM value must be in range 0..255"
    else
      .ok { bridge with
        pwmOutputValue := value
        pins := board.analogWrite kPwmOutputPin value.toNat bridge.pins }
  else if offset = kAdcInputOffset then .error "ADC input register is read-only"
  else if offset = kStatusOffset then .error "status register is read-only"
  else if offset = kCommandOffset then
    if value = 1 then
      .ok { bridge with
        commandValue := value
        gpioOutputValue := 0
        pwmOutputValue := 0
        pins := board.analogWrite kPwmOutputPin 0
          (board.digitalWrite kGpioOutputPin false bridge.pins) }
    else .ok { bridge with commandValue := value }
  else .error "unknown hardware register offset"

/-! ## Requests -/

/-- A read of a register and the response to it. -/
def serveRead (board : Board W) (offset : BitVec 32) (bridge : Bridge W) : Bridge W :=
  match readRegister board offset bridge with
  | (some value, bridge) => sendValue value bridge
  | (none, bridge) => sendError "unknown hardware register offset" bridge

/-- A write of a register and the response to it. -/
def serveWrite (board : Board W) (offset : BitVec 32) (value : Word) (bridge : Bridge W) : Bridge W :=
  match writeRegister board offset value bridge with
  | .ok bridge => sendOk bridge
  | .error error => sendError error bridge

/-- `handleRead`. -/
def handleRead (board : Board W) (arguments : Str) (bridge : Bridge W) : Bridge W :=
  match parseUnsigned arguments with
  | none => sendError "READ requires one decimal offset" bridge
  | some offset => serveRead board offset bridge

/-- `handleWrite`. -/
def handleWrite (board : Board W) (arguments : Str) (bridge : Bridge W) : Bridge W :=
  match splitOnce arguments with
  | none => sendError "WRITE requires decimal offset and value" bridge
  | some (offsetText, valueText) =>
      if valueText = [] ∨ ' '.toUInt8 ∈ valueText then
        sendError "WRITE requires decimal offset and value" bridge
      else
        match parseUnsigned offsetText, parseSigned valueText with
        | some offset, some value => serveWrite board offset value bridge
        | _, _ => sendError "WRITE contains an invalid number" bridge

/-- The prefixes that `handleLine` compares with. -/
def kReadPrefix : Str := "ZEROCPU/1 READ "
def kWritePrefix : Str := "ZEROCPU/1 WRITE "

/-- `handleLine`. -/
def handleLine (board : Board W) (line : Str) (bridge : Bridge W) : Bridge W :=
  let line := trim line
  if line = [] then bridge
  else if line = "ZEROCPU/1 PING" then sendPong bridge
  else if kReadPrefix.isPrefixOf line then
    handleRead board (line.drop kReadPrefix.length) bridge
  else if kWritePrefix.isPrefixOf line then
    handleWrite board (line.drop kWritePrefix.length) bridge
  else sendError "unknown request" bridge

/-! ## Received characters -/

/-- The bridge and its line buffer. -/
structure Receiver (W : Type) where
  inputLine : Str := []
  bridge : Bridge W

/-- One round of `receiveSerialLines`. -/
def receiveCharacter (board : Board W) (receiver : Receiver W) (character : UInt8) : Receiver W :=
  if character = '\n' then ⟨[], handleLine board receiver.inputLine receiver.bridge⟩
  else if character ≠ '\r' then
    if receiver.inputLine.length ≥ 255 then ⟨[], sendError "request is too long" receiver.bridge⟩
    else ⟨receiver.inputLine ++ [character], receiver.bridge⟩
  else receiver

/-- One call with the characters that are available. -/
def receiveSerialLines (board : Board W) (receiver : Receiver W) (available : Str) : Receiver W :=
  available.foldl (receiveCharacter board) receiver

end ZeroCpu.Hardware.Firmware
