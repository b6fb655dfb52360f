import ZeroCpu.Assembler.Text

/-!
# The hardware protocol

Reference: `src/hardware/HardwareProtocol.cpp`.

The rest of a `std::istringstream` is the text that it has still to yield. The conversions of the
standard library come with the message of the exception they throw.
-/

namespace ZeroCpu.Hardware

open Library Assembler

/-! ## Conversions of the standard library -/

/-- The sign in front of a number, whether it is a minus sign, and the text behind it. -/
def scanSign : Str → Bool × Str
  | [] => (false, [])
  | ch :: rest =>
      if ch = '-' then (true, rest) else if ch = '+' then (false, rest) else (false, ch :: rest)

/-- What `strtoull` and `strtoll` find in base ten behind white space: whether there is a minus
sign, the magnitude of the digits, and the text they stop at. -/
def scanNumber (text : Str) : Option (Bool × ℕ × Str) :=
  let (negative, unsigned) := scanSign (text.dropWhile isSpace)
  let (digits, rest) := unsigned.span isDigit
  (parseDigits 10 digits).map fun magnitude => (negative, magnitude, rest)

/-- `std::stoull(text, &parsed, 10)`: the value and how many characters it took. The range is that
of the magnitude; a minus sign then negates the unsigned value. -/
def stoull (text : Str) : Except Str (Word × ℕ) :=
  match scanNumber text with
  | none => .error "stoull"
  | some (negative, magnitude, rest) =>
      if magnitude < 2 ^ 64 then
        .ok (if negative then -BitVec.ofNat 64 magnitude else BitVec.ofNat 64 magnitude,
          text.length - rest.length)
      else .error "stoull"

/-- A magnitude under its sign. -/
def signed (negative : Bool) (magnitude : ℕ) : ℤ := if negative then -magnitude else magnitude

/-- `std::stoll(text, &parsed, 10)`. -/
def stoll (text : Str) : Except Str (Word × ℕ) :=
  match scanNumber text with
  | none => .error "stoll"
  | some (negative, magnitude, rest) =>
      if -2 ^ 63 ≤ signed negative magnitude ∧ signed negative magnitude < 2 ^ 63 then
        .ok (BitVec.ofInt 64 (signed negative magnitude), text.length - rest.length)
      else .error "stoll"

/-! ## Fields of a message -/

/-- The text without the carriage returns and newlines at its end. -/
def trimLineEndings (text : Str) : Str :=
  (text.reverse.dropWhile fun ch : UInt8 => ch == '\n' || ch == '\r').reverse

/-- `stream >> token`, which fails at the end of the stream. -/
def readToken (stream : Str) : Option (Str × Str) :=
  match nextToken stream with
  | ([], _) => none
  | (token, rest) => some (token, rest)

/-- A field that a message has to have. -/
def requireToken (stream message : Str) : Except Str (Str × Str) :=
  match readToken stream with
  | some (token, rest) => .ok (token, rest)
  | none => .error message

/-- Nothing but spaces is left of the stream. -/
def requireNoExtraToken (stream : Str) : Except Str Unit :=
  reject ((readToken stream).isSome = true) "Hardware protocol message has extra fields"

/-- A register offset in decimal. -/
def parseOffset (text : Str) : Except Str Word := do
  let (value, parsed) ← stoull text
  reject (parsed ≠ text.length) "Invalid hardware register offset"
  pure value

/-- A register value in decimal. -/
def parseValue (text : Str) : Except Str Word := do
  let (value, parsed) ← stoll text
  reject (parsed ≠ text.length) "Invalid hardware register value"
  pure value

/-! ## Messages -/

/-- `HardwareProtocolRequestType`. -/
inductive HardwareProtocolRequestType where
  | Ping
  | Read
  | Write
deriving DecidableEq

/-- `HardwareProtocolRequest`. -/
structure HardwareProtocolRequest where
  type : HardwareProtocolRequestType := .Ping
  offset : Word := 0
  value : Word := 0
deriving DecidableEq

/-- `HardwareProtocolResponseType`. -/
inductive HardwareProtocolResponseType where
  | Pong
  | Ok
  | Value
  | Error
deriving DecidableEq

/-- `HardwareProtocolResponse`. -/
structure HardwareProtocolResponse where
  type : HardwareProtocolResponseType := .Error
  value : Word := 0
  message : Str := []
deriving DecidableEq

namespace HardwareProtocol

/-- The first token of every message. -/
def kVersion : Str := "ZEROCPU/1"

/-- The version is the supported one. -/
def requireVersion (version : Str) : Except Str Unit :=
  reject (version ≠ kVersion) ("Unsupported hardware protocol version: " ++ version : Str)

/-- `pingRequest`. -/
def pingRequest : Str := kVersion ++ " PING\n"

/-- `readRequest`. -/
def readRequest (offset : Word) : Str := kVersion ++ " READ " ++ toStr offset.toNat ++ "\n"

/-- `writeRequest`. -/
def writeRequest (offset value : Word) : Str :=
  kVersion ++ " WRITE " ++ toStr offset.toNat ++ " " ++ intToStr value.toInt ++ "\n"

/-- `pongResponse`. -/
def pongResponse : Str := kVersion ++ " PONG\n"

/-- `okResponse`. -/
def okResponse : Str := kVersion ++ " OK\n"

/-- `valueResponse`. -/
def valueResponse (value : Word) : Str := kVersion ++ " VALUE " ++ intToStr value.toInt ++ "\n"

/-- `errorResponse`. -/
def errorResponse (message : Str) : Str := kVersion ++ " ERROR " ++ message ++ "\n"

/-- `parseRequest`. -/
def parseRequest (text : Str) : Except Str HardwareProtocolRequest := do
  let stream := trimLineEndings text
  let (version, stream) ← requireToken stream "Malformed hardware protocol request"
  let (command, stream) ← requireToken stream "Malformed hardware protocol request"
  requireVersion version
  if command = "PING" then
    requireNoExtraToken stream
    pure { type := .Ping }
  else if command = "READ" then
    let (offsetText, stream) ← requireToken stream "READ request requires an offset"
    requireNoExtraToken stream
    let offset ← parseOffset offsetText
    pure { type := .Read, offset := offset }
  else if command = "WRITE" then
    let (offsetText, stream) ← requireToken stream "WRITE request requires offset and value"
    let (valueText, stream) ← requireToken stream "WRITE request requires offset and value"
    requireNoExtraToken stream
    let offset ← parseOffset offsetText
    let value ← parseValue valueText
    pure { type := .Write, offset := offset, value := value }
  else .error ("Unknown hardware protocol request: " ++ command : Str)

/-- The message of an `ERROR` response: the rest of its line without the separating space. -/
def errorMessage (stream : Str) : Str :=
  let message := restOfLine stream
  let message := if message.head? = some ' '.toUInt8 then message.tail else message
  if message = [] then "unspecified device error" else message

/-- `parseResponse`. -/
def parseResponse (text : Str) : Except Str HardwareProtocolResponse := do
  let stream := trimLineEndings text
  let (version, stream) ← requireToken stream "Malformed hardware protocol response"
  let (command, stream) ← requireToken stream "Malformed hardware protocol response"
  requireVersion version
  if command = "PONG" then
    requireNoExtraToken stream
    pure { type := .Pong }
  else if command = "OK" then
    requireNoExtraToken stream
    pure { type := .Ok }
  else if command = "VALUE" then
    let (valueText, stream) ← requireToken stream "VALUE response requires a value"
    requireNoExtraToken stream
    let value ← parseValue valueText
    pure { type := .Value, value := value }
  else if command = "ERROR" then
    pure { type := .Error, message := errorMessage stream }
  else .error ("Unknown hardware protocol response: " ++ command : Str)

end HardwareProtocol

end ZeroCpu.Hardware
