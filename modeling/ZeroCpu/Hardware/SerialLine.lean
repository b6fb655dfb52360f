import ZeroCpu.Hardware.InStep
import ZeroCpu.Hardware.SerialRefinement

/-!
# The serial line between host and board

Reference: `src/hardware/WindowsSerialTransport.cpp`, `firmware/esp32/zero_cpu_bridge/zero_cpu_bridge.ino`,
`setup`.

What the transport asks of the operating system is a `SerialPort`, of which nothing is known but the
hypotheses of `Carries`: what the calls are documented to do on a line that works, with the ESP32 bridge
at its far end. Such a port may split what is written, hold characters that nobody has read and restart
the chip while it is opened.
-/

namespace ZeroCpu.Hardware

open Library Firmware

variable {S W : Type}

/-! ## The transport -/

/-- The calls of the operating system on its state. `writeFile` returns how many characters it took;
`readFile` returns one character, or none when the time is up. Nobody looks at the result of the second
`PurgeComm`. -/
structure SerialPort (S : Type) where
  createFile : Exec Str S Unit
  closeHandle : S → S
  configurePort : Exec Str S Unit
  configureTimeout : BitVec 32 → Exec Str S Unit
  setupComm : Exec Str S Unit
  purgeComm : Exec Str S Unit
  sleep : S → S
  purgeReceived : S → S
  writeFile : Str → Exec Str S ℕ
  flushFileBuffers : Exec Str S Unit
  readFile : Exec Str S (Option UInt8)

/-- Whether the transport has a handle, and the state of the operating system. -/
structure WindowsSerialTransport (S : Type) where
  handle : Bool
  system : S

namespace WindowsSerialTransport

/-- The operating system behind a transport. -/
def systemRef : Ref (WindowsSerialTransport S) S where
  get := system
  set system transport := { transport with system := system }
  get_set _ _ := rfl
  set_get _ := rfl
  set_set _ _ _ := rfl

variable (port : SerialPort S)

/-- Close the handle, if there is one. -/
def disconnect : Exec Str (WindowsSerialTransport S) Unit :=
  Exec.modify fun transport =>
    if transport.handle then ⟨false, port.closeHandle transport.system⟩ else transport

/-- What `connect` does with an open port. -/
def configure : Exec Str S Unit := do
  port.configurePort
  port.configureTimeout 500
  port.setupComm
  port.purgeComm
  Exec.modify port.sleep
  Exec.modify port.purgeReceived

/-- Open the port; what is thrown while it is set up closes it again. -/
def connect : Exec Str (WindowsSerialTransport S) Unit := do
  if (← Exec.get).handle then pure ()
  else
    Exec.zoom systemRef port.createFile
    Exec.modify fun transport => { transport with handle := true }
    Exec.onError (Exec.zoom systemRef (configure port)) (disconnect port)

/-- The rounds of the writing loop. Each writes something, so there are no more than characters. -/
def writeRest : ℕ → Str → Exec Str S Unit
  | 0, _ => pure ()
  | rounds + 1, remaining =>
      if remaining = [] then pure ()
      else do
        let written ← port.writeFile (remaining.take 0xFFFFFFFF)
        Exec.require (written != 0) "Serial write made no progress"
        writeRest rounds (remaining.drop written)

/-- The reading loop, with room for so many more characters. -/
def readRest : ℕ → Str → Exec Str S Str
  | 0, _ => Exec.throw "Serial response exceeded 4096 bytes"
  | room + 1, response => do
      match ← port.readFile with
      | none => Exec.throw "Serial transaction timed out waiting for a response"
      | some character =>
          if character = '\n' then pure (response ++ [character])
          else readRest room (response ++ [character])

/-- Write the request and read one line. -/
def transact (request : Str) (timeoutMilliseconds : BitVec 32) :
    Exec Str (WindowsSerialTransport S) Str := do
  Exec.require (← Exec.get).handle "Windows serial transport is not connected"
  Exec.require (request != []) "Serial request must not be empty"
  Exec.require (timeoutMilliseconds != 0) "Serial timeout must be greater than zero"
  Exec.zoom systemRef do
    port.configureTimeout timeoutMilliseconds
    writeRest port request.length request
    port.flushFileBuffers
    readRest port 4096 []

/-- The Windows transport as a `SerialTransport`. -/
def serialTransport : SerialTransport (WindowsSerialTransport S) where
  connected := handle
  connect := connect port
  disconnect := disconnect port
  transact := transact port

/-- The serial bus of a host over a port. -/
def bus (timeout : { timeout : BitVec 32 // timeout ≠ 0 }) :
    SerialHardwareBus (WindowsSerialTransport S) :=
  ⟨serialTransport port, timeout.val, timeout.property⟩

end WindowsSerialTransport

/-! ## The line -/

/-- The characters that the host has still to read, those on their way included, and the bridge. -/
structure SerialLine (W : Type) where
  incoming : Str
  receiver : Receiver W

namespace SerialLine

/-- The characters of printed lines. -/
def printed (lines : List Str) : Str := lines.flatMap fun line => line ++ "\r\n"

/-- Characters reach the bridge, and what it prints about them reaches the host. -/
def deliver (board : Board W) (text : Str) (line : SerialLine W) : SerialLine W :=
  let receiver := receiveSerialLines board line.receiver text
  ⟨line.incoming ++ printed (receiver.bridge.sent.drop line.receiver.bridge.sent.length), receiver⟩

/-- Nobody will read what has been printed so far. -/
def purge (line : SerialLine W) : SerialLine W := { line with incoming := [] }

end SerialLine

/-- The bridge after a call that may restart the chip: as it was, or as `setup` leaves it. -/
inductive MayRestart (receiver : Receiver W) : Receiver W → Prop
  | kept : MayRestart receiver receiver
  | restarted (pins : W) : MayRestart receiver ⟨[], { pins := pins }⟩

/-- Restarting twice is restarting. -/
theorem MayRestart.trans {receiver receiver' receiver'' : Receiver W} (h : MayRestart receiver receiver')
    (h' : MayRestart receiver' receiver'') : MayRestart receiver receiver'' := by
  cases h' with
  | kept => exact h
  | restarted pins => exact .restarted pins

/-! ## Ports -/

/-- The far end of a port: the board, and which bridge a state of the operating system has behind a
closed port, and which line behind an open one. -/
structure FarEnd (S W : Type) where
  board : Board W
  Closed : S → Receiver W → Prop
  Open : S → SerialLine W → Prop

/-- From every state with this line the call succeeds, and it leaves a line as in `Q`. -/
def FarEnd.Yields (far : FarEnd S W) {α : Type} (call : Exec Str S α) (line : SerialLine W)
    (Q : α → SerialLine W → Prop) : Prop :=
  ∀ s, far.Open s line → ∃ value s' line', call s = (.ok value, s') ∧ far.Open s' line' ∧ Q value line'

open SerialLine in
/-- What a host relies on at a port with the bridge at its far end. The calls that it makes succeed, and
do what they are documented to do; the line neither loses nor changes a character. -/
structure Carries (port : SerialPort S) (far : FarEnd S W) : Prop where
  /-- The port can be opened. Its control lines may restart the chip, here and while it is set up. -/
  createFile : ∀ s receiver, far.Closed s receiver → ∃ s' line,
    port.createFile s = (.ok (), s') ∧ far.Open s' line ∧ MayRestart receiver line.receiver
  /-- A handle can be closed, which drops what nobody has read. -/
  closeHandle : ∀ s line, far.Open s line →
    ∃ receiver, far.Closed (port.closeHandle s) receiver ∧ MayRestart line.receiver receiver
  configurePort : ∀ line, far.Yields port.configurePort line fun _ line' =>
    MayRestart line.receiver line'.receiver
  /-- Setting a time transfers nothing. -/
  configureTimeout : ∀ time line, time ≠ 0 → far.Yields (port.configureTimeout time) line
    fun _ line' => line' = line
  setupComm : ∀ line, far.Yields port.setupComm line fun _ line' =>
    MayRestart line.receiver line'.receiver
  purgeComm : ∀ line, far.Yields port.purgeComm line fun _ line' =>
    MayRestart line.receiver line'.receiver
  /-- A chip that restarts has done so when the sleep is over, and may have printed meanwhile. -/
  sleep : ∀ line, far.Yields (Exec.modify port.sleep) line fun _ line' =>
    MayRestart line.receiver line'.receiver
  /-- What has been printed by then can no longer be read. -/
  purgeReceived : ∀ line, far.Yields (Exec.modify port.purgeReceived) line fun _ line' =>
    line' = line.purge
  /-- Some of the characters are written, and reach the bridge. What it prints about them finds room in
  the buffer of 4096 characters that `SetupComm` asks for. -/
  writeFile : ∀ text line, text ≠ [] → (deliver far.board text line).incoming.length ≤ 4096 →
    far.Yields (port.writeFile text) line fun written line' =>
      0 < written ∧ written ≤ text.length ∧ line' = deliver far.board (text.take written) line
  /-- What is written has reached the bridge already. -/
  flushFileBuffers : ∀ line, far.Yields port.flushFileBuffers line fun _ line' => line' = line
  /-- A character that the bridge has printed arrives before the time is up. -/
  readFile : ∀ character rest receiver, far.Yields port.readFile ⟨character :: rest, receiver⟩
    fun read line' => read = some character ∧ line' = ⟨rest, receiver⟩

/-! ### A port that works -/

/-- What a system does on its own: how many characters one call writes at most, what arrives while the
port is opened, and whether the chip restarts then. -/
structure Wiring where
  capacity : ℕ
  capacity_pos : 0 < capacity
  chatter : Str
  restarts : Bool

namespace Wiring

open SerialLine

variable (wiring : Wiring) (board : Board W)

/-- The line after the sleep of `connect`. -/
def start (line : SerialLine W) : SerialLine W where
  incoming := line.incoming ++ wiring.chatter
  receiver := if wiring.restarts then ⟨[], { pins := line.receiver.bridge.pins }⟩ else line.receiver

/-- The next character of the line, or none when there is none. -/
def readCharacter : Exec Str (SerialLine W) (Option UInt8) := fun line =>
  match line.incoming with
  | [] => (.ok none, line)
  | character :: rest => (.ok (some character), { line with incoming := rest })

/-- A port whose state is the line itself. -/
def port : SerialPort (SerialLine W) where
  createFile := pure ()
  closeHandle := id
  configurePort := pure ()
  configureTimeout _ := pure ()
  setupComm := pure ()
  purgeComm := Exec.modify purge
  sleep := wiring.start
  purgeReceived := purge
  writeFile text := do
    Exec.modify (deliver board (text.take wiring.capacity))
    pure (text.take wiring.capacity).length
  flushFileBuffers := pure ()
  readFile := readCharacter

/-- Its far end, where every state shows its own line. -/
def farEnd : FarEnd (SerialLine W) W where
  board := board
  Closed line receiver := line.receiver = receiver
  Open line line' := line = line'

/-- The hypotheses on a port hold of this one, however it splits what is written and whatever arrives
while it is opened. -/
theorem carries : Carries (wiring.port board) (farEnd board) where
  createFile := by
    rintro line receiver rfl
    exact ⟨line, line, rfl, rfl, .kept⟩
  closeHandle := by
    rintro line - rfl
    exact ⟨line.receiver, rfl, .kept⟩
  configurePort := by
    rintro - line rfl
    exact ⟨(), line, line, rfl, rfl, .kept⟩
  configureTimeout := by
    rintro time - - line rfl
    exact ⟨(), line, line, rfl, rfl, rfl⟩
  setupComm := by
    rintro - line rfl
    exact ⟨(), line, line, rfl, rfl, .kept⟩
  purgeComm := by
    rintro - line rfl
    exact ⟨(), line.purge, line.purge, rfl, rfl, .kept⟩
  sleep := by
    rintro - line rfl
    refine ⟨(), wiring.start line, wiring.start line, rfl, rfl, ?_⟩
    rw [start]
    split_ifs
    · exact .restarted _
    · exact .kept
  purgeReceived := by
    rintro - line rfl
    exact ⟨(), line.purge, line.purge, rfl, rfl, rfl⟩
  -- Some of the text is taken, and delivered at once.
  writeFile := by
    rintro text - hne - line rfl
    have hpos := List.length_pos_iff.mpr hne
    have hcapacity := wiring.capacity_pos
    have hlength : (text.take wiring.capacity).length = min wiring.capacity text.length :=
      List.length_take
    have htake : text.take (text.take wiring.capacity).length = text.take wiring.capacity := by
      rw [hlength, ← List.take_eq_take_min]
    refine ⟨_, _, _, rfl, rfl, ?_, ?_, ?_⟩
    · omega
    · omega
    · exact congrArg (deliver board · line) htake.symm
  flushFileBuffers := by
    rintro - line rfl
    exact ⟨(), line, line, rfl, rfl, rfl⟩
  readFile := by
    rintro character rest receiver - rfl
    exact ⟨_, ⟨rest, receiver⟩, ⟨rest, receiver⟩, rfl, rfl, rfl, rfl⟩

end Wiring

/-! ## The registers without the line -/

namespace Firmware

/-- The error of a bus, for the error of the bridge. -/
def failed (access message : Str) : Str := "Hardware " ++ access ++ " failed: " ++ message

/-- A bus that asks the registers of a bridge directly. Offsets of 32 bits are all that the bridge can
parse. -/
def registerBus (board : Board W) : HardwareBus (Bridge W) where
  connected _ := true
  connect := pure ()
  disconnect := pure ()
  readRegister offset := fun bridge =>
    if offset.toNat < 2 ^ 32 then
      match readRegister board (BitVec.ofNat 32 offset.toNat) bridge with
      | (some value, bridge) => (.ok value, bridge)
      | (none, bridge) => (.error (failed "read" "unknown hardware register offset"), bridge)
    else (.error (failed "read" "READ requires one decimal offset"), bridge)
  writeRegister offset value := fun bridge =>
    if offset.toNat < 2 ^ 32 then
      match writeRegister board (BitVec.ofNat 32 offset.toNat) value bridge with
      | .ok bridge => (.ok (), bridge)
      | .error message => (.error (failed "write" message), bridge)
    else (.error (failed "write" "WRITE contains an invalid number"), bridge)

/-- Two bridges that differ only in what they have printed. -/
structure SameRegisters (bridge bridge' : Bridge W) : Prop where
  gpioOutputValue : bridge.gpioOutputValue = bridge'.gpioOutputValue
  pwmOutputValue : bridge.pwmOutputValue = bridge'.pwmOutputValue
  commandValue : bridge.commandValue = bridge'.commandValue
  pins : bridge.pins = bridge'.pins

end Firmware

end ZeroCpu.Hardware
