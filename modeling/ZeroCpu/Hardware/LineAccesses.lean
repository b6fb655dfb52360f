import ZeroCpu.Hardware.SerialLine

/-!
# Accesses over the line

Every request of the host is answered by one line, which the host reads whole. So nothing is on its
way behind an access, and the host sees the registers of the bridge themselves: over any port that
`Carries` the line.
-/

namespace ZeroCpu.Hardware

open Library Assembler Firmware HardwareProtocol WindowsSerialTransport

variable {S W : Type}

/-! ## Calls of a port -/

section Yields

variable {far : FarEnd S W} {α β : Type} {line : SerialLine W}

/-- A call that only returns. -/
theorem FarEnd.Yields.pure {Q : α → SerialLine W → Prop} {a : α} (h : Q a line) :
    far.Yields (Pure.pure a) line Q := fun s hs => ⟨a, s, line, rfl, hs, h⟩

/-- One call after another. -/
theorem FarEnd.Yields.bind {m : Exec Str S α} {f : α → Exec Str S β} {Q : α → SerialLine W → Prop}
    {R : β → SerialLine W → Prop} (h : far.Yields m line Q)
    (hf : ∀ a line', Q a line' → far.Yields (f a) line' R) : far.Yields (m >>= f) line R := by
  intro s hs
  obtain ⟨a, s', line', hm, hs', hQ⟩ := h s hs
  obtain ⟨b, s'', line'', hfa, hs'', hR⟩ := hf a line' hQ s' hs'
  exact ⟨b, s'', line'', (Exec.bind_of_ok hm).trans hfa, hs'', hR⟩

/-- A check that passes. -/
theorem FarEnd.Yields.require {c : Bool} {e : Str} {f : Unit → Exec Str S β}
    {R : β → SerialLine W → Prop} (h : c = true) (hf : far.Yields (f ()) line R) :
    far.Yields (Exec.require c e >>= f) line R := by
  subst h
  exact hf

end Yields

namespace SerialLine

/-! ## Responses -/

/-- A printed line and the response that the host takes it for. -/
structure Speaks (line : Str) (response : HardwareProtocolResponse) : Prop where
  parses : parseResponse (line ++ "\r\n") = .ok response
  whole : 10 ∉ line
  length_le : line.length ≤ 1000

/-- A printed line is delivered with its line ending. -/
theorem delivered_println (line : Str) : Delivered (line ++ "\n") (line ++ "\r\n") := by
  have hdrop : (line ++ Str.ofString "\n").dropLast = line := List.dropLast_concat
  have hdelivered : Delivered (line ++ "\n") ((line ++ Str.ofString "\n").dropLast ++ "\r\n") :=
    .carriageReturn
  rwa [hdrop] at hdelivered

/-- The answer to a ping. -/
theorem speaks_pong : Speaks "ZEROCPU/1 PONG" { type := .Pong } where
  parses := parseResponse_pong (delivered_println "ZEROCPU/1 PONG")
  whole := by decide
  length_le := by decide

/-- The answer to a write. -/
theorem speaks_ok : Speaks "ZEROCPU/1 OK" { type := .Ok } where
  parses := parseResponse_ok (delivered_println "ZEROCPU/1 OK")
  whole := by decide
  length_le := by decide

/-- The answer to a read. -/
theorem speaks_value (value : Word) :
    Speaks ("ZEROCPU/1 VALUE " ++ intToStr value.toInt) { type := .Value, value := value } where
  parses := parseResponse_value (delivered_println _)
  whole hmem := (List.mem_append.mp hmem).elim (by decide)
    (notMem_of_solid (solid_intToStr value.toInt).1).1
  length_le := by
    have hlength := length_intToStr_le value
    have hfront : (Str.ofString "ZEROCPU/1 VALUE ").length = 16 := rfl
    rw [List.length_append]
    omega

/-- The messages of the bridge. -/
def messages : List Str :=
  ["request is too long", "READ requires one decimal offset", "unknown hardware register offset",
    "WRITE requires decimal offset and value", "WRITE contains an invalid number",
    "GPIO input register is read-only", "PWM value must be in range 0..255",
    "ADC input register is read-only", "status register is read-only", "unknown request"]

/-- An error with one of the messages of the bridge. -/
theorem speaks_error {message : Str} (h : message ∈ messages) :
    Speaks ("ZEROCPU/1 ERROR " ++ message) { type := .Error, message := message } := by
  have hall : ∀ message ∈ messages, message ≠ [] ∧ 10 ∉ message
      ∧ message.getLast? ≠ some 13 ∧ message.length ≤ 900 := by decide
  obtain ⟨hne, hwhole, hlast, hlength⟩ := hall message h
  have hfront : (Str.ofString "ZEROCPU/1 ERROR ").length = 16 := rfl
  refine ⟨parseResponse_error hne hwhole hlast (delivered_println _), fun hmem => ?_, ?_⟩
  · exact (List.mem_append.mp hmem).elim (by decide) hwhole
  · rw [List.length_append]
    omega

/-! ## The registers -/

theorem sameRegisters_refl (bridge : Bridge W) : SameRegisters bridge bridge := ⟨rfl, rfl, rfl, rfl⟩

theorem sameRegisters_println {bridge bridge' : Bridge W} (h : SameRegisters bridge bridge')
    (line : Str) : SameRegisters (println line bridge) bridge' := ⟨h.1, h.2, h.3, h.4⟩

/-- What is printed makes no difference to a register. -/
theorem readRegister_same (board : Board W) (offset : BitVec 32) {bridge bridge' : Bridge W}
    (h : SameRegisters bridge bridge') :
    (readRegister board offset bridge).1 = (readRegister board offset bridge').1
      ∧ SameRegisters (readRegister board offset bridge).2 (readRegister board offset bridge').2 := by
  obtain ⟨gpio, pwm, command, pins, sent⟩ := bridge
  obtain ⟨gpio', pwm', command', pins', sent'⟩ := bridge'
  obtain ⟨rfl, rfl, rfl, rfl⟩ := h
  unfold readRegister
  split_ifs <;> exact ⟨rfl, ⟨rfl, rfl, rfl, rfl⟩⟩

/-- Bridges with the same registers write alike. -/
theorem writeRegister_same (board : Board W) (offset : BitVec 32) (value : Word)
    {bridge bridge' : Bridge W} (h : SameRegisters bridge bridge') :
    (∃ message ∈ messages, writeRegister board offset value bridge = .error message
        ∧ writeRegister board offset value bridge' = .error message)
      ∨ ∃ after after', writeRegister board offset value bridge = .ok after
        ∧ writeRegister board offset value bridge' = .ok after' ∧ SameRegisters after after' := by
  obtain ⟨gpio, pwm, command, pins, sent⟩ := bridge
  obtain ⟨gpio', pwm', command', pins', sent'⟩ := bridge'
  obtain ⟨rfl, rfl, rfl, rfl⟩ := h
  unfold writeRegister
  split_ifs
  all_goals first
    | exact .inr ⟨_, _, rfl, rfl, ⟨rfl, rfl, rfl, rfl⟩⟩
    | exact .inl ⟨_, by decide, rfl, rfl⟩

/-! ## Delivery -/

/-- The bridge only ever prints more. -/
theorem exists_sent_handleLine (board : Board W) (line : Str) (bridge : Bridge W) :
    ∃ more, (handleLine board line bridge).sent = bridge.sent ++ more := by
  by_cases hblank : Blank line
  · exact ⟨[], by rw [handleLine_of_blank board hblank, List.append_nil]⟩
  · obtain ⟨response, hsent⟩ := answered_handleLine board hblank bridge
    exact ⟨[response], hsent⟩

/-- What was sent stays sent, after a character. -/
theorem exists_sent_receiveCharacter (board : Board W) (receiver : Receiver W) (character : UInt8) :
    ∃ more, (receiveCharacter board receiver character).bridge.sent = receiver.bridge.sent ++ more := by
  rw [receiveCharacter]
  split_ifs
  · exact exists_sent_handleLine board receiver.inputLine receiver.bridge
  · exact ⟨_, rfl⟩
  · exact ⟨[], (List.append_nil _).symm⟩
  · exact ⟨[], (List.append_nil _).symm⟩

/-- What was sent stays sent, after a text. -/
theorem exists_sent_receive (board : Board W) (text : Str) (receiver : Receiver W) :
    ∃ more, (receiveSerialLines board receiver text).bridge.sent = receiver.bridge.sent ++ more := by
  induction text generalizing receiver with
  | nil => exact ⟨[], (List.append_nil _).symm⟩
  | cons character text ih =>
    obtain ⟨first, hfirst⟩ := exists_sent_receiveCharacter board receiver character
    obtain ⟨rest, hrest⟩ := ih (receiveCharacter board receiver character)
    refine ⟨first ++ rest, ?_⟩
    rw [← List.append_assoc, ← hfirst]
    exact hrest

/-- Nothing delivered changes nothing. -/
theorem deliver_nil (board : Board W) (line : SerialLine W) : deliver board [] line = line := by
  have hnone : line.receiver.bridge.sent.drop line.receiver.bridge.sent.length = [] :=
    List.drop_length
  have hincoming : line.incoming
      ++ printed (line.receiver.bridge.sent.drop line.receiver.bridge.sent.length) = line.incoming := by
    rw [hnone]
    exact List.append_nil _
  exact congrArg (SerialLine.mk · line.receiver) hincoming

/-- Two texts are delivered as one. -/
theorem deliver_deliver (board : Board W) (text text' : Str) (line : SerialLine W) :
    deliver board text' (deliver board text line) = deliver board (text ++ text') line := by
  obtain ⟨first, hfirst⟩ := exists_sent_receive board text line.receiver
  obtain ⟨rest, hrest⟩ :=
    exists_sent_receive board text' (receiveSerialLines board line.receiver text)
  have hreceive : receiveSerialLines board line.receiver (text ++ text')
      = receiveSerialLines board (receiveSerialLines board line.receiver text) text' :=
    List.foldl_append
  simp only [deliver, hreceive, hrest, hfirst, List.append_assoc, List.drop_left]
  rw [← List.append_assoc line.receiver.bridge.sent, List.drop_left, printed, printed, printed,
    List.flatMap_append]

/-- What has been delivered is not taken back. -/
theorem incoming_deliver_le (board : Board W) (text text' : Str) (line : SerialLine W) :
    (deliver board text line).incoming.length ≤ (deliver board (text ++ text') line).incoming.length := by
  rw [← deliver_deliver board text text' line]
  exact (List.prefix_append _ _).length_le

section Carried

variable {port : SerialPort S} {far : FarEnd S W}

/-- However the request is split, all of it reaches the bridge. -/
theorem yields_writeRest (carries : Carries port far) {rounds : ℕ} {text : Str}
    (h : text.length ≤ rounds) {line : SerialLine W}
    (hroom : (deliver far.board text line).incoming.length ≤ 4096) :
    far.Yields (writeRest port rounds text) line fun _ line' => line' = deliver far.board text line := by
  induction rounds generalizing text line with
  | zero =>
    obtain rfl := List.length_eq_zero_iff.mp (Nat.le_zero.mp h)
    exact .pure (deliver_nil far.board line).symm
  | succ rounds ih =>
    rw [writeRest]
    split_ifs with hnil
    · subst hnil
      exact .pure (deliver_nil far.board line).symm
    · -- One call is given so much of the text, and need not take all of that.
      have hgiven : text.take 0xFFFFFFFF ≠ [] := by
        rw [Ne, List.take_eq_nil_iff, not_or]
        exact ⟨by decide, hnil⟩
      have hfits : (deliver far.board (text.take 0xFFFFFFFF) line).incoming.length ≤ 4096 := by
        refine (incoming_deliver_le far.board _ (text.drop 0xFFFFFFFF) line).trans ?_
        rwa [List.take_append_drop]
      refine (carries.writeFile _ line hgiven hfits).bind fun written line' hwritten => ?_
      obtain ⟨hpos, hle, rfl⟩ := hwritten
      have htake : (text.take 0xFFFFFFFF).take written = text.take written := by
        rw [List.take_take]
        congr 1
        rw [List.length_take] at hle
        omega
      have hboth : deliver far.board (text.drop written) (deliver far.board (text.take written) line)
          = deliver far.board text line := by
        rw [deliver_deliver, List.take_append_drop]
      rw [htake]
      refine .require (bne_iff_ne.mpr (Nat.pos_iff_ne_zero.mp hpos)) ?_
      rw [← hboth] at hroom ⊢
      refine ih ?_ hroom
      rw [List.length_drop]
      omega

/-- The host reads up to the first line feed. -/
theorem yields_readRest (carries : Carries port far) {room : ℕ} {text : Str} (hwhole : 10 ∉ text)
    (hroom : text.length < room) (response rest : Str) (receiver : Receiver W) :
    far.Yields (readRest port room response) ⟨text ++ 10 :: rest, receiver⟩ fun read line' =>
      read = response ++ text ++ [10] ∧ line' = ⟨rest, receiver⟩ := by
  induction text generalizing room response with
  | nil =>
    obtain ⟨room, rfl⟩ := Nat.exists_eq_add_one_of_ne_zero (Nat.ne_of_gt hroom)
    refine (carries.readFile 10 rest receiver).bind fun read line' hread => ?_
    obtain ⟨rfl, rfl⟩ := hread
    exact .pure ⟨by rw [List.append_nil], rfl⟩
  | cons character text ih =>
    obtain ⟨room, rfl⟩ := Nat.exists_eq_add_one_of_ne_zero (Nat.ne_of_gt (Nat.zero_lt_of_lt hroom))
    rw [List.mem_cons, not_or] at hwhole
    have hch : character ≠ '\n'.toUInt8 := Ne.symm hwhole.1
    refine (carries.readFile character (text ++ 10 :: rest) receiver).bind fun read line' hread => ?_
    obtain ⟨rfl, rfl⟩ := hread
    dsimp only
    rw [if_neg hch, List.append_cons response character text]
    exact ih hwhole.2 (Nat.lt_of_succ_lt_succ hroom) (response ++ [character])

/-! ## Exchanges -/

variable {timeout : { timeout : BitVec 32 // timeout ≠ 0 }}

/-- A request on a line without stale characters is answered by the first line that is printed. -/
theorem transact_eq (carries : Carries port far) {request : Str} (hne : request ≠ [])
    {receiver after : Receiver W} {answer : Str} {more : List Str} (hwhole : 10 ∉ answer)
    (hlength : (printed (answer :: more)).length ≤ 4096)
    (hreceive : receiveSerialLines far.board receiver request = after)
    (hsent : after.bridge.sent = receiver.bridge.sent ++ answer :: more) {s : S}
    (hopen : far.Open s ⟨[], receiver⟩) :
    ∃ s', transact port request timeout.val ⟨true, s⟩ = (.ok (answer ++ "\r\n"), ⟨true, s'⟩)
      ∧ far.Open s' ⟨printed more, after⟩ := by
  have hrequest : (request != []) = true := bne_iff_ne.mpr hne
  have htime : (timeout.val != 0) = true := bne_iff_ne.mpr timeout.property
  have hdeliver : deliver far.board request ⟨[], receiver⟩ = ⟨printed (answer :: more), after⟩ := by
    simp only [deliver, hreceive, hsent, List.drop_left, List.nil_append]
  have hprinted : printed (answer :: more) = (answer ++ [13]) ++ 10 :: printed more := by
    simp only [printed, List.flatMap_cons, List.append_assoc]
    rfl
  have htalk : far.Yields (do
      port.configureTimeout timeout.val
      writeRest port request.length request
      port.flushFileBuffers
      readRest port 4096 []) ⟨[], receiver⟩ fun text line' =>
        text = answer ++ "\r\n" ∧ line' = ⟨printed more, after⟩ := by
    refine (carries.configureTimeout _ _ timeout.property).bind fun _ line hline => ?_
    subst hline
    have hroom : (deliver far.board request ⟨[], receiver⟩).incoming.length ≤ 4096 := by
      rw [hdeliver]
      exact hlength
    refine (yields_writeRest carries le_rfl hroom).bind fun _ line hline => ?_
    subst hline
    refine (carries.flushFileBuffers _).bind fun _ line hline => ?_
    subst hline
    rw [hdeliver, hprinted]
    -- The first line feed ends the answer, whatever has been printed behind it.
    have hwhole' : 10 ∉ answer ++ [13] := fun hmem =>
      (List.mem_append.mp hmem).elim hwhole (by decide)
    have hshort : (answer ++ [13]).length < 4096 := by
      rw [hprinted, List.length_append, List.length_cons] at hlength
      omega
    have htext : answer ++ Str.ofString "\r\n" = [] ++ (answer ++ [13]) ++ [10] := by
      rw [List.nil_append, List.append_assoc]
      rfl
    rw [htext]
    exact yields_readRest carries hwhole' hshort [] (printed more) after
  obtain ⟨-, s', -, htalk, hs', rfl, rfl⟩ := htalk s hopen
  refine ⟨s', ?_, hs'⟩
  simp only [transact, Exec.bind_apply, Exec.get_apply, Exec.require_apply, hrequest, htime, if_true]
  exact Exec.zoom_eq_ok.mpr ⟨_, htalk, rfl⟩

variable (timeout) in
/-- A request and the response that the answer is taken for. -/
theorem exchange_eq (carries : Carries port far) {request : Str} (hne : request ≠ [])
    {receiver after : Receiver W} {answer : Str} {more : List Str} {response : HardwareProtocolResponse}
    (hspeaks : Speaks answer response) (hlength : (printed (answer :: more)).length ≤ 4096)
    (hreceive : receiveSerialLines far.board receiver request = after)
    (hsent : after.bridge.sent = receiver.bridge.sent ++ answer :: more) {s : S}
    (hopen : far.Open s ⟨[], receiver⟩) :
    ∃ s', (WindowsSerialTransport.bus port timeout).exchange request ⟨true, s⟩
        = (.ok response, ⟨true, s'⟩)
      ∧ far.Open s' ⟨printed more, after⟩ := by
  obtain ⟨s', htransact, hs'⟩ :=
    transact_eq carries hne hspeaks.whole hlength hreceive hsent hopen
  have hbus : (WindowsSerialTransport.bus port timeout).transact request ⟨true, s⟩
      = (.ok (answer ++ "\r\n"), ⟨true, s'⟩) := htransact
  refine ⟨s', ?_, hs'⟩
  rw [SerialHardwareBus.exchange, Exec.bind_of_ok hbus, Exec.lift_apply, hspeaks.parses]

/-! ## A line in order -/

/-- Nothing is on its way, and the bridge has the registers. -/
structure Settled (line : SerialLine W) (bridge : Bridge W) : Prop where
  incoming : line.incoming = []
  inputLine : line.receiver.inputLine = []
  registers : SameRegisters line.receiver.bridge bridge

/-- The host has an open port, its line is in order, and the bridge has the registers. -/
def Behind (far : FarEnd S W) (transport : WindowsSerialTransport S) (bridge : Bridge W) : Prop :=
  transport.handle = true ∧ ∃ line, far.Open transport.system line ∧ Settled line bridge

theorem Behind.mk {far : FarEnd S W} {s : S} {line : SerialLine W} {bridge : Bridge W}
    (hopen : far.Open s line) (h : Settled line bridge) : Behind far ⟨true, s⟩ bridge :=
  ⟨rfl, line, hopen, h⟩

/-- One printed line finds room. -/
theorem Speaks.length_printed {answer : Str} {response : HardwareProtocolResponse}
    (h : Speaks answer response) : (printed [answer]).length ≤ 1002 := by
  have hlength := h.length_le
  rw [printed, List.flatMap_singleton, List.length_append]
  exact Nat.add_le_add_right hlength 2

/-- One exchange with a bridge that answers the request. -/
theorem Settled.exchange (carries : Carries port far) {line : SerialLine W}
    {bridge after bridge' : Bridge W} (h : Settled line bridge) {request answer : Str}
    (hne : request ≠ []) {response : HardwareProtocolResponse} (hspeaks : Speaks answer response)
    (hreceive : receiveSerialLines far.board ⟨[], line.receiver.bridge⟩ request
      = ⟨[], println answer after⟩)
    (hsent : after.sent = line.receiver.bridge.sent) (hsame : SameRegisters after bridge') {s : S}
    (hopen : far.Open s line) :
    ∃ transport', (WindowsSerialTransport.bus port timeout).exchange request ⟨true, s⟩
        = (.ok response, transport') ∧ Behind far transport' bridge' := by
  obtain ⟨incoming, inputLine, before⟩ := line
  obtain ⟨rfl, rfl⟩ : incoming = [] ∧ inputLine = [] := ⟨h.incoming, h.inputLine⟩
  have hprinted : (println answer after).sent = before.sent ++ [answer] := congrArg (· ++ [answer]) hsent
  obtain ⟨s', hexchange, hs'⟩ := exchange_eq timeout carries hne hspeaks
    (hspeaks.length_printed.trans (by decide)) hreceive hprinted hopen
  exact ⟨_, hexchange, .mk hs' ⟨rfl, rfl, sameRegisters_println hsame answer⟩⟩

/-! ### Requests of the host -/

/-- Offsets of 32 bits are all that the bridge can parse. -/
theorem parseUnsigned_offset (n : ℕ) :
    parseUnsigned (toStr n) = if n < 2 ^ 32 then some (BitVec.ofNat 32 n) else none := by
  split_ifs with h
  · exact parseUnsigned_toStr h
  · obtain ⟨numeral, htext, hvalue⟩ := exists_decimal n
    have hsigned : signed (decide (numeral.sign = .minus)) numeral.magnitude = n := by
      rw [← numeral.value_eq, hvalue]
    have hmagnitude : ¬ numeral.magnitude < 2 ^ 32 := by
      rw [signed] at hsigned
      split_ifs at hsigned <;> omega
    rw [← intToStr_natCast, ← htext, parseUnsigned, if_neg numeral.text_ne_nil, cStr_text,
      scanNumber_text]
    exact if_neg hmagnitude

theorem receiveChunks_singleton (board : Board W) (text : Str) (bridge : Bridge W) :
    receiveChunks board [text] bridge = receiveSerialLines board ⟨[], bridge⟩ text := rfl

/-- A request that fits the buffer is handled as one line. -/
theorem receive_line (board : Board W) {line : Str} (hwhole : 10 ∉ line ∧ 13 ∉ line)
    (hlength : line.length ≤ 255) (bridge : Bridge W) :
    receiveSerialLines board ⟨[], bridge⟩ (line ++ "\n") = ⟨[], handleLine board line bridge⟩ :=
  receiveChunks_line board line hwhole.1 hwhole.2 hlength List.flatten_singleton bridge

/-- A read request is handled as a read. -/
theorem receive_readRequest (board : Board W) (offset : Word) (bridge : Bridge W) :
    receiveSerialLines board ⟨[], bridge⟩ (readRequest offset)
      = ⟨[], handleRead board (toStr offset.toNat) bridge⟩ := by
  obtain ⟨hnewline, hreturn⟩ := notMem_of_solid (solid_toStr_nat offset.toNat).1
  have hlength := @length_toStr_le offset.toNat 20 (by decide) (by omega)
  have hfront : kReadPrefix.length = 15 := rfl
  have hhandle : handleLine board (kReadPrefix ++ toStr offset.toNat) bridge
      = handleRead board (toStr offset.toNat) bridge := by
    have htrim : trim (kReadPrefix ++ toStr offset.toNat) = kReadPrefix ++ toStr offset.toNat :=
      trim_append (by decide) (solid_toStr_nat offset.toNat)
    have hping : kReadPrefix ++ toStr offset.toNat ≠ Str.ofString "ZEROCPU/1 PING" := fun heq =>
      absurd (congrArg (fun text => text[10]?) heq) (show some (82 : UInt8) ≠ some 80 by decide)
    have hread : kReadPrefix.isPrefixOf (kReadPrefix ++ toStr offset.toNat) = true := rfl
    simp only [handleLine, htrim, if_neg hping, hread, if_true, List.drop_left]
    rfl
  rw [← hhandle]
  refine @receive_line _ board (kReadPrefix ++ toStr offset.toNat) ⟨fun hmem => ?_, fun hmem => ?_⟩ ?_ bridge
  · exact (List.mem_append.mp hmem).elim (by decide) hnewline
  · exact (List.mem_append.mp hmem).elim (by decide) hreturn
  · rw [List.length_append]
    omega

/-- What the bridge does with a write whose fields it has found. -/
def writeFields (board : Board W) (offset value : Word) (bridge : Bridge W) : Bridge W :=
  match parseUnsigned (toStr offset.toNat) with
  | some offset => serveWrite board offset value bridge
  | none => sendError "WRITE contains an invalid number" bridge

/-- A write request is handled as a write. -/
theorem receive_writeRequest (board : Board W) (offset value : Word) (bridge : Bridge W) :
    receiveSerialLines board ⟨[], bridge⟩ (writeRequest offset value)
      = ⟨[], writeFields board offset value bridge⟩ := by
  obtain ⟨hnewline, hreturn⟩ := notMem_of_solid (solid_toStr_nat offset.toNat).1
  obtain ⟨hsolid, hne⟩ := solid_intToStr value.toInt
  obtain ⟨hnewline', hreturn'⟩ := notMem_of_solid hsolid
  have hlength := @length_toStr_le offset.toNat 20 (by decide) (by omega)
  have hlength' := length_intToStr_le value
  have hfront : kWritePrefix.length = 16 := rfl
  have hsent : writeRequest offset value
      = kWritePrefix ++ (toStr offset.toNat ++ ' '.toUInt8 :: intToStr value.toInt) ++ "\n" := by
    simp only [writeRequest, List.append_assoc]
    rfl
  have hhandle : handleLine board
      (kWritePrefix ++ (toStr offset.toNat ++ ' '.toUInt8 :: intToStr value.toInt)) bridge
        = writeFields board offset value bridge := by
    have htrim : trim (kWritePrefix ++ (toStr offset.toNat ++ ' '.toUInt8 :: intToStr value.toInt))
        = kWritePrefix ++ (toStr offset.toNat ++ ' '.toUInt8 :: intToStr value.toInt) := by
      have hline : kWritePrefix ++ (toStr offset.toNat ++ ' '.toUInt8 :: intToStr value.toInt)
          = (kWritePrefix ++ (toStr offset.toNat ++ [' '.toUInt8])) ++ intToStr value.toInt := by
        simp only [List.append_assoc, List.singleton_append]
      rw [hline]
      exact trim_append (by decide) ⟨hsolid, hne⟩
    -- The line is neither a handshake nor a read, so the bridge looks for two fields.
    have hping : kWritePrefix ++ (toStr offset.toNat ++ ' '.toUInt8 :: intToStr value.toInt)
        ≠ Str.ofString "ZEROCPU/1 PING" := fun heq =>
      absurd (congrArg (fun text => text[10]?) heq) (show some (87 : UInt8) ≠ some 80 by decide)
    have hread : kReadPrefix.isPrefixOf
        (kWritePrefix ++ (toStr offset.toNat ++ ' '.toUInt8 :: intToStr value.toInt)) = false := rfl
    have hwrite : kWritePrefix.isPrefixOf
        (kWritePrefix ++ (toStr offset.toNat ++ ' '.toUInt8 :: intToStr value.toInt)) = true := rfl
    have hspace : ¬ (intToStr value.toInt = [] ∨ ' '.toUInt8 ∈ intToStr value.toInt) :=
      not_or.mpr ⟨hne, fun hmem => absurd (hsolid _ hmem) (by decide)⟩
    simp only [handleLine, htrim, if_neg hping, hread, hwrite, if_true, List.drop_left, handleWrite,
      splitOnce_append (solid_toStr_nat offset.toNat).1 hsolid, if_neg hspace,
      parseSigned_intToStr, writeFields]
    cases parseUnsigned (toStr offset.toNat) <;> rfl
  rw [hsent, ← hhandle]
  refine receive_line board ?_ ?_ bridge
  · simp only [List.mem_append, List.mem_cons, not_or]
    exact ⟨⟨by decide, hnewline, by decide, hnewline'⟩, ⟨by decide, hreturn, by decide, hreturn'⟩⟩
  · rw [List.length_append, List.length_append, List.length_cons]
    omega

/-! ### One access -/

theorem requireConnected_eq (s : S) :
    (WindowsSerialTransport.bus port timeout).requireConnected ⟨true, s⟩ = (.ok (), ⟨true, s⟩) := rfl

/-- Requests are not empty. -/
theorem request_ne_nil (offset value : Word) :
    readRequest offset ≠ [] ∧ writeRequest offset value ≠ [] := by
  have hne : ∀ text : Str, kVersion ++ text ≠ [] := fun _ h =>
    absurd (List.append_eq_nil_iff.mp h).1 (by decide)
  simp only [readRequest, writeRequest, List.append_assoc]
  exact ⟨hne _, hne _⟩

/-- A read over the line is a read of the register. -/
theorem Behind.readRegister (carries : Carries port far) {transport : WindowsSerialTransport S}
    {bridge : Bridge W} (h : Behind far transport bridge) (offset : Word) : ∃ result transport' bridge',
      (WindowsSerialTransport.bus port timeout).readRegister offset transport = (result, transport')
      ∧ (registerBus far.board).readRegister offset bridge = (result, bridge')
      ∧ Behind far transport' bridge' := by
  obtain ⟨handle, s⟩ := transport
  obtain ⟨rfl, line, hopen, hsettled⟩ := h
  have hne := (request_ne_nil offset 0).1
  have hreceive := receive_readRequest far.board offset line.receiver.bridge
  simp only [SerialHardwareBus.readRegister, Exec.bind_of_ok (requireConnected_eq s), registerBus]
  rw [handleRead, parseUnsigned_offset] at hreceive
  split_ifs at hreceive ⊢
  · -- The bridge knows its registers by 32 bits, and has a value for some.
    obtain ⟨hvalue, hsame⟩ :=
      readRegister_same far.board (BitVec.ofNat 32 offset.toNat) hsettled.registers
    have hsent := readRegister_sent far.board (BitVec.ofNat 32 offset.toNat) line.receiver.bridge
    dsimp only [serveRead] at hreceive
    generalize Firmware.readRegister far.board (BitVec.ofNat 32 offset.toNat) line.receiver.bridge = out
      at hvalue hsame hsent hreceive
    generalize Firmware.readRegister far.board (BitVec.ofNat 32 offset.toNat) bridge = out' at hvalue hsame ⊢
    obtain ⟨value, after⟩ := out
    obtain ⟨value', bridge'⟩ := out'
    obtain rfl : value = value' := hvalue
    cases value with
    | some value =>
      obtain ⟨transport', hexchange, h'⟩ :=
        hsettled.exchange carries hne (speaks_value value) hreceive hsent hsame hopen
      exact ⟨_, transport', bridge', Exec.bind_of_ok hexchange, rfl, h'⟩
    | none =>
      obtain ⟨transport', hexchange, h'⟩ :=
        hsettled.exchange carries hne (speaks_error (by decide)) hreceive hsent hsame hopen
      exact ⟨_, transport', bridge', Exec.bind_of_ok hexchange, rfl, h'⟩
  · obtain ⟨transport', hexchange, h'⟩ :=
      hsettled.exchange carries hne (speaks_error (by decide)) hreceive rfl hsettled.registers hopen
    exact ⟨_, transport', bridge, Exec.bind_of_ok hexchange, rfl, h'⟩

/-- A write over the line is a write of the register. -/
theorem Behind.writeRegister (carries : Carries port far) {transport : WindowsSerialTransport S}
    {bridge : Bridge W} (h : Behind far transport bridge) (offset value : Word) :
    ∃ result transport' bridge',
      (WindowsSerialTransport.bus port timeout).writeRegister offset value transport
        = (result, transport')
      ∧ (registerBus far.board).writeRegister offset value bridge = (result, bridge')
      ∧ Behind far transport' bridge' := by
  obtain ⟨handle, s⟩ := transport
  obtain ⟨rfl, line, hopen, hsettled⟩ := h
  have hne := (request_ne_nil offset value).2
  have hreceive := receive_writeRequest far.board offset value line.receiver.bridge
  simp only [SerialHardwareBus.writeRegister, Exec.bind_of_ok (requireConnected_eq s), registerBus]
  rw [writeFields, parseUnsigned_offset] at hreceive
  split_ifs at hreceive ⊢
  · -- The bridge refuses some writes, with one of its messages.
    dsimp only [serveWrite] at hreceive
    rcases writeRegister_same far.board (BitVec.ofNat 32 offset.toNat) value hsettled.registers with
      ⟨message, hmessage, hwrite, hwrite'⟩ | ⟨after, after', hwrite, hwrite', hsame⟩
    · rw [hwrite] at hreceive
      rw [hwrite']
      obtain ⟨transport', hexchange, h'⟩ :=
        hsettled.exchange carries hne (speaks_error hmessage) hreceive rfl hsettled.registers hopen
      exact ⟨_, transport', bridge, Exec.bind_of_ok hexchange, rfl, h'⟩
    · rw [hwrite] at hreceive
      rw [hwrite']
      obtain ⟨transport', hexchange, h'⟩ :=
        hsettled.exchange carries hne speaks_ok hreceive (writeRegister_sent hwrite) hsame hopen
      exact ⟨_, transport', after', Exec.bind_of_ok hexchange, rfl, h'⟩
  · obtain ⟨transport', hexchange, h'⟩ :=
      hsettled.exchange carries hne (speaks_error (by decide)) hreceive rfl hsettled.registers hopen
    exact ⟨_, transport', bridge, Exec.bind_of_ok hexchange, rfl, h'⟩

/-- So is every access. -/
theorem Behind.access (carries : Carries port far) {transport : WindowsSerialTransport S}
    {bridge : Bridge W} (h : Behind far transport bridge) (access : Access) :
    ∃ result transport' bridge',
      (WindowsSerialTransport.bus port timeout).hardwareBus.access access transport
        = (result, transport')
      ∧ (registerBus far.board).access access bridge = (result, bridge')
      ∧ Behind far transport' bridge' := by
  cases access with
  | read offset =>
    obtain ⟨result, transport', bridge', hline, hregister, h'⟩ := h.readRegister carries offset
    cases result with
    | ok value => exact ⟨_, transport', bridge', Exec.bind_of_ok hline, Exec.bind_of_ok hregister, h'⟩
    | error message =>
      exact ⟨_, transport', bridge', Exec.bind_of_error hline, Exec.bind_of_error hregister, h'⟩
  | write offset value =>
    obtain ⟨result, transport', bridge', hline, hregister, h'⟩ := h.writeRegister carries offset value
    cases result with
    | ok value => exact ⟨_, transport', bridge', Exec.bind_of_ok hline, Exec.bind_of_ok hregister, h'⟩
    | error message =>
      exact ⟨_, transport', bridge', Exec.bind_of_error hline, Exec.bind_of_error hregister, h'⟩

/-! ## Accesses in step -/

/-- Over any port that carries the line, the host sees the registers of the bridge, whatever it reads
and writes: the same values, errors at the same places with the same messages, and a line that stays in
order. -/
theorem accesses_in_step (carries : Carries port far) {transport : WindowsSerialTransport S}
    {bridge : Bridge W} (h : Behind far transport bridge) (accesses : List Access) :
    ∃ outcomes transport' bridge',
      (WindowsSerialTransport.bus port timeout).hardwareBus.accesses accesses transport
        = (.ok outcomes, transport')
      ∧ (registerBus far.board).accesses accesses bridge = (.ok outcomes, bridge')
      ∧ Behind far transport' bridge' := by
  induction accesses generalizing transport bridge with
  | nil => exact ⟨[], transport, bridge, rfl, rfl, h⟩
  | cons access rest ih =>
    obtain ⟨result, transport', bridge', hline, hregister, h'⟩ := h.access carries access
    obtain ⟨outcomes, transport'', bridge'', hlines, hregisters, h''⟩ := ih h'
    have hattempt : Exec.attempt ((WindowsSerialTransport.bus port timeout).hardwareBus.access access)
        transport = ((.ok result : Except Str _), transport') := by rw [Exec.attempt, hline]
    have hattempt' : Exec.attempt ((registerBus far.board).access access) bridge
        = ((.ok result : Except Str _), bridge') := by rw [Exec.attempt, hregister]
    refine ⟨result :: outcomes, transport'', bridge'', ?_, ?_, h''⟩
    · rw [HardwareBus.accesses, Exec.bind_of_ok hattempt, Exec.bind_of_ok hlines]
      rfl
    · rw [HardwareBus.accesses, Exec.bind_of_ok hattempt', Exec.bind_of_ok hregisters]
      rfl

/-- A line that takes three characters at a time, to a chip that restarts and says so. -/
def chattyWiring : Wiring := ⟨3, by decide, "rst:0x1\r\n", true⟩

/-- Writes and reads, refused ones among them, over a line that delivers in pieces. -/
theorem accesses_in_step_chatty : ∃ outcomes transport' bridge',
    (WindowsSerialTransport.bus (chattyWiring.port idleBoard) ⟨500, by decide⟩).hardwareBus.accesses
        [.write 0 1, .read 0, .read 5, .write 16 256, .read (-8)]
        ⟨true, ⟨[], ⟨[], { pins := () }⟩⟩⟩ = (.ok outcomes, transport')
      ∧ (registerBus idleBoard).accesses
          [.write 0 1, .read 0, .read 5, .write 16 256, .read (-8)] { pins := () }
        = (.ok outcomes, bridge')
      ∧ Behind (Wiring.farEnd idleBoard) transport' bridge' :=
  accesses_in_step (chattyWiring.carries idleBoard) (.mk rfl ⟨rfl, rfl, sameRegisters_refl _⟩) _

end Carried

end SerialLine

end ZeroCpu.Hardware
