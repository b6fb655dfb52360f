import Mathlib.Data.List.Infix
import ZeroCpu.Hardware.LineAccesses

/-!
# The handshake

Connecting over a line that was in use: characters that nobody has read, and the beginning of a
request in the buffer of the bridge. Either the handshake puts the line in order, or it fails and
leaves nothing in the way of the next one, over any port that `Carries` the line.
-/

namespace ZeroCpu.Hardware

open Library Assembler Firmware HardwareProtocol WindowsSerialTransport

variable {S W : Type}

namespace SerialLine

/-! ## A line that was in use -/

/-- No register has been written. -/
structure SameValues (bridge bridge' : Bridge W) : Prop where
  gpioOutputValue : bridge.gpioOutputValue = bridge'.gpioOutputValue
  pwmOutputValue : bridge.pwmOutputValue = bridge'.pwmOutputValue
  commandValue : bridge.commandValue = bridge'.commandValue

theorem sameValues_println {bridge bridge' : Bridge W} (h : SameValues bridge bridge') (line : Str) :
    SameValues (println line bridge) bridge' := ⟨h.1, h.2, h.3⟩

theorem sameValues_refl (bridge : Bridge W) : SameValues bridge bridge := ⟨rfl, rfl, rfl⟩

theorem SameValues.trans {bridge bridge' bridge'' : Bridge W} (h : SameValues bridge bridge')
    (h' : SameValues bridge' bridge'') : SameValues bridge bridge'' :=
  ⟨h.1.trans h'.1, h.2.trans h'.2, h.3.trans h'.3⟩

/-- No request has written a register: they are as they were, or as `setup` leaves them. -/
def Unwritten (bridge bridge' : Bridge W) : Prop :=
  SameValues bridge bridge' ∨ SameValues bridge { pins := bridge'.pins }

/-- The registers of a restarted chip do not depend on what it was before. -/
theorem Unwritten.trans {bridge bridge' bridge'' : Bridge W} (h : Unwritten bridge bridge')
    (h' : Unwritten bridge' bridge'') : Unwritten bridge bridge'' := by
  rcases h with hsame | hfresh
  · exact h'.imp hsame.trans hsame.trans
  · exact .inr ⟨hfresh.1, hfresh.2, hfresh.3⟩

/-- A restart writes no register and empties the buffer of the bridge. -/
theorem unwritten_of_mayRestart {receiver receiver' : Receiver W} (h : MayRestart receiver receiver') :
    Unwritten receiver'.bridge receiver.bridge
      ∧ receiver'.inputLine.length ≤ receiver.inputLine.length := by
  cases h with
  | kept => exact ⟨.inl (sameValues_refl _), le_rfl⟩
  | restarted pins => exact ⟨.inr ⟨rfl, rfl, rfl⟩, Nat.zero_le _⟩

/-- A read changes no value. -/
theorem sameValues_handleRead (board : Board W) (arguments : Str) (bridge : Bridge W) :
    SameValues (handleRead board arguments bridge) bridge := by
  unfold handleRead
  split
  · exact sameValues_println (sameValues_refl bridge) _
  · rename_i offset _
    have hread : SameValues (Firmware.readRegister board offset bridge).2 bridge := by
      unfold Firmware.readRegister
      split_ifs <;> exact ⟨rfl, rfl, rfl⟩
    rw [serveRead]
    generalize Firmware.readRegister board offset bridge = out at hread ⊢
    obtain ⟨value, after⟩ := out
    cases value <;> exact sameValues_println hread _

/-- What is left of a text whose last character is no white space. -/
theorem trim_suffix {text : Str} (h : ∀ ch ∈ text.getLast?, isSpace ch = false) : trim text <:+ text := by
  have hdrop : text.dropWhile isSpace <:+ text := List.dropWhile_suffix _
  have htrim : trim text = text.dropWhile isSpace := by
    have hhead : ∀ ch ∈ (text.dropWhile isSpace).reverse.head?, isSpace ch = false := by
      intro ch hch
      rw [List.head?_reverse] at hch
      obtain ⟨front, hfront⟩ := hdrop
      refine h ch ?_
      rw [← hfront, List.getLast?_append, Option.mem_def.mp hch]
      rfl
    rw [trim]
    cases hreverse : (text.dropWhile isSpace).reverse with
    | nil => rw [List.reverse_eq_nil_iff.mp hreverse]; rfl
    | cons ch rest =>
      rw [hreverse] at hhead
      rw [List.dropWhile_cons_of_neg (by simp [hhead ch rfl]), ← hreverse, List.reverse_reverse]
  rw [htrim]
  exact hdrop

/-- The end of a request for a handshake. -/
def Stale (text : Str) : Prop := ∃ front, text <:+ front ++ "ZEROCPU/1 PING"

theorem Stale.suffix {text text' : Str} (h : Stale text) (hsuffix : text' <:+ text) : Stale text' :=
  h.imp fun _ => hsuffix.trans

/-- A stale text is a piece of a ping, or ends in one. -/
theorem Stale.cases {text : Str} (h : Stale text) :
    text ∈ (Str.ofString " PING").tails ∨ Str.ofString " PING" <:+ text := by
  obtain ⟨front, hsuffix⟩ := h
  have hping : Str.ofString " PING" <:+ front ++ "ZEROCPU/1 PING" :=
    (show Str.ofString " PING" <:+ "ZEROCPU/1 PING" by decide).trans (List.suffix_append _ _)
  exact (List.suffix_or_suffix_of_suffix hsuffix hping).imp (List.mem_tails _ _).mpr id

/-- A stale text stays stale without white space around it. -/
theorem Stale.trim {text : Str} (h : Stale text) : Stale (trim text) := by
  refine h.suffix (trim_suffix fun ch hch => ?_)
  rcases h.cases with hshort | ⟨front, rfl⟩
  · have hall : ∀ text ∈ (Str.ofString " PING").tails, ∀ ch ∈ text.getLast?, isSpace ch = false := by
      decide +kernel
    exact hall text hshort ch hch
  · rw [List.getLast?_append] at hch
    obtain rfl := Option.some.inj hch
    decide

/-- A field at its end is no number. -/
theorem Stale.parseSigned {text : Str} (h : Stale text) (hspace : ' '.toUInt8 ∉ text) :
    parseSigned text = none := by
  rcases h.cases with hshort | hlong
  · have hall : ∀ text ∈ (Str.ofString " PING").tails, ' '.toUInt8 ∉ text →
        Firmware.parseSigned text = none := by decide
    exact hall text hshort hspace
  · exact absurd (hlong.subset (by decide)) hspace

/-- What follows the first field of a stale text is stale. -/
theorem Stale.splitOnce {text first rest : Str} (h : Stale text)
    (hsplit : splitOnce text = some (first, rest)) : Stale rest := by
  rw [Firmware.splitOnce, List.span_eq_takeWhile_dropWhile] at hsplit
  have hdrop : text.dropWhile (fun ch : UInt8 => ch != ' ') <:+ text := List.dropWhile_suffix _
  cases hbehind : text.dropWhile (fun ch : UInt8 => ch != ' ') with
  | nil =>
    rw [hbehind] at hsplit
    cases hsplit
  | cons ch remainder =>
    rw [hbehind] at hsplit hdrop
    obtain ⟨-, rfl⟩ := Prod.ext_iff.mp (Option.some.inj hsplit)
    exact (h.suffix ((List.suffix_cons ch remainder).trans hdrop)).trim

/-- A request for a handshake writes no register, whatever it was appended to. -/
theorem Stale.handleLine (board : Board W) {line : Str} (h : Stale line) (bridge : Bridge W) :
    SameValues (handleLine board line bridge) bridge := by
  have hsame := sameValues_refl bridge
  simp only [Firmware.handleLine]
  split_ifs
  · exact hsame
  · exact sameValues_println hsame _
  · exact sameValues_handleRead board _ bridge
  · have harguments : Stale ((Assembler.trim line).drop kWritePrefix.length) :=
      h.trim.suffix (List.drop_suffix _ _)
    unfold handleWrite
    split
    · exact sameValues_println hsame _
    · rename_i offsetText valueText hsplit
      split_ifs with hvalue
      · exact sameValues_println hsame _
      · rw [(harguments.splitOnce hsplit).parseSigned fun hmem => hvalue (.inr hmem)]
        split
        · cases ‹_ = some _›
        · exact sameValues_println hsame _
  · exact sameValues_println hsame _

/-! ## Answers to any line -/

/-- One more line was printed, and the host can read it. -/
def Answers (bridge bridge' : Bridge W) : Prop :=
  ∃ answer response, Speaks answer response ∧ bridge'.sent = bridge.sent ++ [answer]

/-- A printed line answers what it speaks. -/
theorem answers_println {answer : Str} {response : HardwareProtocolResponse}
    (hspeaks : Speaks answer response) {bridge bridge' : Bridge W} (h : bridge'.sent = bridge.sent) :
    Answers bridge (println answer bridge') :=
  ⟨answer, response, hspeaks, congrArg (· ++ [answer]) h⟩

/-- A read is answered. -/
theorem answers_serveRead (board : Board W) (offset : BitVec 32) (bridge : Bridge W) :
    Answers bridge (serveRead board offset bridge) := by
  have hsent := readRegister_sent board offset bridge
  rw [serveRead]
  generalize Firmware.readRegister board offset bridge = out at hsent ⊢
  obtain ⟨value, after⟩ := out
  cases value with
  | some value => exact answers_println (speaks_value value) hsent
  | none => exact answers_println (speaks_error (by decide)) hsent

/-- A write is answered. -/
theorem answers_serveWrite (board : Board W) (offset : BitVec 32) (value : Word)
    (bridge : Bridge W) : Answers bridge (serveWrite board offset value bridge) := by
  rw [serveWrite]
  rcases writeRegister_same board offset value (sameRegisters_refl bridge) with
    ⟨message, hmessage, hwrite, -⟩ | ⟨after, -, hwrite, -, -⟩
  · rw [hwrite]
    exact answers_println (speaks_error hmessage) rfl
  · rw [hwrite]
    exact answers_println speaks_ok (writeRegister_sent hwrite)

/-- A write is answered, also when its arguments cannot be parsed. -/
theorem answers_handleWrite (board : Board W) (arguments : Str) (bridge : Bridge W) :
    Answers bridge (handleWrite board arguments bridge) := by
  unfold handleWrite
  split
  · exact answers_println (speaks_error (by decide)) rfl
  split_ifs
  · exact answers_println (speaks_error (by decide)) rfl
  split
  · exact answers_serveWrite board _ _ bridge
  · exact answers_println (speaks_error (by decide)) rfl

/-- A read is answered, also when its offset cannot be parsed. -/
theorem answers_handleRead (board : Board W) (arguments : Str) (bridge : Bridge W) :
    Answers bridge (handleRead board arguments bridge) := by
  unfold handleRead
  split
  · exact answers_println (speaks_error (by decide)) rfl
  · exact answers_serveRead board _ bridge

/-- A line that is not blank is answered. -/
theorem answers_handleLine (board : Board W) {line : Str} (h : ¬ Blank line) (bridge : Bridge W) :
    Answers bridge (handleLine board line bridge) := by
  simp only [handleLine, if_neg (mt trim_eq_nil_iff.mp h)]
  split_ifs
  · exact answers_println speaks_pong rfl
  · exact answers_handleRead board _ bridge
  · exact answers_handleWrite board _ bridge
  · exact answers_println (speaks_error (by decide)) rfl

/-! ## The handshake -/

/-- A receiver with a short line is within that line. -/
theorem within_of_short {input : Str} (h : input.length ≤ 255) (bridge : Bridge W) :
    within input bridge = ⟨input, bridge⟩ := by
  have hnone : overflows input = 0 := Nat.div_eq_of_lt (by omega)
  rw [within, buffered, hnone]
  rfl

/-- What is in the buffer ends with the request for a handshake. -/
theorem receive_pingRequest (board : Board W) {input : Str} (h : input.length ≤ 255)
    (bridge : Bridge W) : receiveSerialLines board ⟨input, bridge⟩ pingRequest
      = ⟨[], handleEnded board bridge (input ++ "ZEROCPU/1 PING")⟩ := by
  have hrequest : pingRequest = Str.ofString "ZEROCPU/1 PING" ++ "\n" := rfl
  rw [← within_of_short h, receive_within, hrequest, linesFrom_append (by decide) (by decide)]
  exact within_nil _

/-- At most one more answer is printed, and it fits a line. -/
theorem exists_more_handleLine (board : Board W) (line : Str) (bridge : Bridge W) : ∃ more,
    (handleLine board line bridge).sent = bridge.sent ++ more ∧ (printed more).length ≤ 1002 := by
  by_cases hblank : Blank line
  · exact ⟨[], by rw [handleLine_of_blank board hblank, List.append_nil], Nat.zero_le _⟩
  · obtain ⟨answer, response, hspeaks, hsent⟩ := answers_handleLine board hblank bridge
    exact ⟨[answer], hsent, hspeaks.length_printed⟩

/-- The answers to a handshake on a line that was in use: the first tells the host whether the line
is in order, and nothing follows a `PONG`. -/
theorem exists_answers_ping (board : Board W) {input : Str} (h : input.length ≤ 255)
    (bridge : Bridge W) : ∃ after answer response more,
      receiveSerialLines board ⟨input, bridge⟩ pingRequest = ⟨[], after⟩
      ∧ Speaks answer response ∧ after.sent = bridge.sent ++ answer :: more
      ∧ (printed (answer :: more)).length ≤ 4096
      ∧ SameValues after bridge ∧ (response.type = .Pong → more = []) := by
  have hstale : Stale (buffered (input ++ "ZEROCPU/1 PING")) := ⟨input, List.drop_suffix _ _⟩
  have hlength : (Str.ofString "ZEROCPU/1 PING").length = 14 := rfl
  refine ⟨handleEnded board bridge (input ++ "ZEROCPU/1 PING"), ?_⟩
  rcases Nat.lt_or_ge (input ++ "ZEROCPU/1 PING").length 256 with hshort | hlong
  · -- The line fits, and is answered once.
    have hended : handleEnded board bridge (input ++ "ZEROCPU/1 PING")
        = handleLine board (input ++ "ZEROCPU/1 PING") bridge :=
      handleEnded_of_short board (by omega) bridge
    have hblank : ¬ Blank (input ++ Str.ofString "ZEROCPU/1 PING") := fun hblank =>
      absurd (hblank 'G'.toUInt8 (List.mem_append_right _ (by decide))) (by decide)
    obtain ⟨answer, response, hspeaks, hsent⟩ := answers_handleLine board hblank bridge
    refine ⟨answer, response, [], receive_pingRequest board h bridge, hspeaks, hended ▸ hsent,
      hspeaks.length_printed.trans (by decide), ?_, fun _ => rfl⟩
    exact hended ▸ Stale.handleLine board ⟨input, List.suffix_refl _⟩ bridge
  · -- The buffer fills up once, which is answered before the rest.
    have hone : overflows (input ++ "ZEROCPU/1 PING") = 1 := by
      rw [overflows]
      rw [List.length_append] at hlong ⊢
      omega
    have hended : handleEnded board bridge (input ++ "ZEROCPU/1 PING")
        = handleLine board (buffered (input ++ "ZEROCPU/1 PING"))
          (sendError "request is too long" bridge) := by
      rw [handleEnded, hone]
      rfl
    obtain ⟨more, hmore, hfits⟩ := exists_more_handleLine board
      (buffered (input ++ "ZEROCPU/1 PING")) (sendError "request is too long" bridge)
    have hspeaks := @speaks_error "request is too long" (by decide)
    refine ⟨_, _, more, receive_pingRequest board h bridge, hspeaks, ?_, ?_, ?_, ?_⟩
    · rw [hended, hmore]
      exact List.append_assoc _ _ _
    · have hfirst := hspeaks.length_printed
      have hboth : printed (("ZEROCPU/1 ERROR " ++ Str.ofString "request is too long") :: more)
          = printed ["ZEROCPU/1 ERROR " ++ Str.ofString "request is too long"] ++ printed more := by
        simp only [printed, List.flatMap_cons, List.flatMap_nil, List.append_nil]
      rw [hboth, List.length_append]
      omega
    · have hsame := hstale.handleLine board (sendError "request is too long" bridge)
      rw [hended]
      exact ⟨hsame.1, hsame.2, hsame.3⟩
    · intro hpong
      cases hpong

theorem ping_ne_nil : pingRequest ≠ [] := by decide

section Carried

variable {port : SerialPort S} {far : FarEnd S W} {timeout : { timeout : BitVec 32 // timeout ≠ 0 }}

/-- A handshake succeeds when the answer to its ping is a pong. -/
theorem handshake_of_exchange {transport transport' : WindowsSerialTransport S}
    {response : HardwareProtocolResponse}
    (h : (WindowsSerialTransport.bus port timeout).exchange pingRequest transport
      = (.ok response, transport')) :
    ((WindowsSerialTransport.bus port timeout).handshake transport = (.ok (), transport')
        ∧ response.type = .Pong)
      ∨ ∃ message,
        (WindowsSerialTransport.bus port timeout).handshake transport = (.error message, transport') := by
  rw [SerialHardwareBus.handshake, Exec.bind_of_ok h]
  cases htype : response.type with
  | Pong => exact .inl ⟨rfl, rfl⟩
  | Ok => exact .inr ⟨_, rfl⟩
  | Value => exact .inr ⟨_, rfl⟩
  | Error => exact .inr ⟨_, rfl⟩

/-- Setting up an open port empties the line. -/
theorem yields_configure (carries : Carries port far) (line : SerialLine W) :
    far.Yields (configure port) line fun _ line' =>
      line'.incoming = [] ∧ MayRestart line.receiver line'.receiver := by
  refine (carries.configurePort line).bind fun _ configured hport => ?_
  refine (carries.configureTimeout 500 configured (by decide)).bind fun _ timed htimed => ?_
  subst htimed
  refine (carries.setupComm timed).bind fun _ buffered hbuffered => ?_
  refine (carries.purgeComm buffered).bind fun _ purged hpurged => ?_
  refine (carries.sleep purged).bind fun _ rested hrested => ?_
  intro s hs
  obtain ⟨u, s', line', hpurge, hs', rfl⟩ := carries.purgeReceived rested s hs
  exact ⟨u, s', _, hpurge, hs', rfl, ((hport.trans hbuffered).trans hpurged).trans hrested⟩

variable (timeout) in
/-- A port that can be opened is open then, with nothing to read. -/
theorem exists_opened (carries : Carries port far) {s : S} {receiver : Receiver W}
    (h : far.Closed s receiver) : ∃ s' opened,
      (WindowsSerialTransport.bus port timeout).connect ⟨false, s⟩
        = Exec.onError (WindowsSerialTransport.bus port timeout).handshake
          (WindowsSerialTransport.disconnect port) ⟨true, s'⟩
      ∧ far.Open s' ⟨[], opened⟩ ∧ MayRestart receiver opened := by
  obtain ⟨s₁, line, hcreate, hopen, hfirst⟩ := carries.createFile s receiver h
  obtain ⟨u, s₂, ⟨incoming, opened⟩, hconfigure, hopened, rfl, hsecond⟩ :=
    yields_configure carries line s₁ hopen
  refine ⟨s₂, opened, ?_, hopened, hfirst.trans hsecond⟩
  have hcreated : Exec.zoom systemRef port.createFile (⟨false, s⟩ : WindowsSerialTransport S)
      = (.ok (), ⟨false, s₁⟩) := Exec.zoom_eq_ok.mpr ⟨s₁, hcreate, rfl⟩
  have hconfigured : Exec.zoom systemRef (configure port) (⟨true, s₁⟩ : WindowsSerialTransport S)
      = (.ok (), ⟨true, s₂⟩) := Exec.zoom_eq_ok.mpr ⟨s₂, hconfigure, rfl⟩
  have hconnect : WindowsSerialTransport.connect port ⟨false, s⟩ = (.ok (), ⟨true, s₂⟩) := by
    show (Exec.zoom systemRef port.createFile >>= _) (⟨false, s⟩ : WindowsSerialTransport S) = _
    rw [Exec.bind_of_ok hcreated]
    show Exec.onError _ _ (⟨true, s₁⟩ : WindowsSerialTransport S) = _
    rw [Exec.onError, hconfigured]
  show (WindowsSerialTransport.connect port >>= _) ⟨false, s⟩ = _
  rw [Exec.bind_of_ok hconnect]
  rfl

/-- A connection of the host over a line that was in use: it succeeds and the line is in order, or it
fails and nothing is left in the buffer of the bridge. -/
theorem connect_cases (carries : Carries port far) {s : S} {receiver : Receiver W}
    (hclosed : far.Closed s receiver) (h : receiver.inputLine.length ≤ 255) :
    (∃ transport after, (WindowsSerialTransport.bus port timeout).connect ⟨false, s⟩
          = (.ok (), transport)
        ∧ Behind far transport after ∧ Unwritten after receiver.bridge)
      ∨ ∃ message s' after, (WindowsSerialTransport.bus port timeout).connect ⟨false, s⟩
          = (.error message, ⟨false, s'⟩)
        ∧ far.Closed s' after ∧ after.inputLine = [] ∧ Unwritten after.bridge receiver.bridge := by
  obtain ⟨s₁, ⟨input, bridge⟩, hconnect, hopened, hrestart⟩ :=
    exists_opened timeout carries hclosed
  obtain ⟨hopening, hshorter⟩ := unwritten_of_mayRestart hrestart
  obtain ⟨after, answer, response, more, hreceive, hspeaks, hsent, hfits, hsame, hpong⟩ :=
    exists_answers_ping far.board (hshorter.trans h) bridge
  obtain ⟨s₂, hexchange, hs₂⟩ := exchange_eq timeout carries ping_ne_nil hspeaks hfits
    hreceive hsent hopened
  have hunwritten : Unwritten after receiver.bridge := Unwritten.trans (.inl hsame) hopening
  rw [hconnect, Exec.onError]
  rcases handshake_of_exchange hexchange with ⟨hshake, htype⟩ | ⟨message, hshake⟩
  · rw [hshake]
    obtain rfl := hpong htype
    exact .inl ⟨_, after, rfl, .mk hs₂ ⟨rfl, rfl, sameRegisters_refl after⟩, hunwritten⟩
  · rw [hshake]
    obtain ⟨closed, hclose, hlast⟩ := carries.closeHandle s₂ _ hs₂
    obtain ⟨hclosing, hempty⟩ := unwritten_of_mayRestart hlast
    have hnil : closed.inputLine = [] := List.length_eq_zero_iff.mp (Nat.le_zero.mp hempty)
    exact .inr ⟨message, port.closeHandle s₂, closed, rfl, hclose, hnil, hclosing.trans hunwritten⟩

/-- Nothing fails when the buffer of the bridge is empty. -/
theorem connect_of_empty (carries : Carries port far) {s : S} {bridge : Bridge W}
    (h : far.Closed s ⟨[], bridge⟩) : ∃ transport after,
    (WindowsSerialTransport.bus port timeout).connect ⟨false, s⟩ = (.ok (), transport)
      ∧ Behind far transport after ∧ Unwritten after bridge := by
  obtain ⟨s₁, ⟨input, opened⟩, hconnect, hopened, hrestart⟩ :=
    exists_opened timeout carries h
  obtain ⟨hopening, hempty⟩ := unwritten_of_mayRestart hrestart
  obtain rfl : input = [] := List.length_eq_zero_iff.mp (Nat.le_zero.mp hempty)
  have hreceive : receiveSerialLines far.board ⟨[], opened⟩ pingRequest = ⟨[], sendPong opened⟩ := by
    rw [← receiveChunks_singleton, receive_ping far.board List.flatten_singleton]
  obtain ⟨s₂, hexchange, hs₂⟩ := exchange_eq timeout carries ping_ne_nil speaks_pong
    (speaks_pong.length_printed.trans (by decide)) hreceive rfl hopened
  refine ⟨⟨true, s₂⟩, opened, ?_, .mk hs₂ ⟨rfl, rfl, ?_⟩, hopening⟩
  · rw [hconnect, Exec.onError, SerialHardwareBus.handshake, Exec.bind_of_ok hexchange]
    rfl
  · exact sameRegisters_println (sameRegisters_refl opened) _

/-- Whatever the bridge has received and the host has not read, connecting over a port that carries the
line leaves it in order, or fails and leaves it to the next connection, which does not. Neither writes
a register, even where the chip restarts. -/
theorem handshake_settles (carries : Carries port far) (chunks : List Str) (bridge : Bridge W) {s : S}
    (h : far.Closed s (receiveChunks far.board chunks bridge)) :
    (∃ transport after, (WindowsSerialTransport.bus port timeout).connect ⟨false, s⟩
          = (.ok (), transport)
        ∧ Behind far transport after
        ∧ Unwritten after (receiveChunks far.board chunks bridge).bridge)
      ∨ ∃ message s' receiver, (WindowsSerialTransport.bus port timeout).connect ⟨false, s⟩
          = (.error message, ⟨false, s'⟩)
        ∧ far.Closed s' receiver
        ∧ Unwritten receiver.bridge (receiveChunks far.board chunks bridge).bridge
        ∧ ∃ transport after, (WindowsSerialTransport.bus port timeout).connect ⟨false, s'⟩
            = (.ok (), transport)
          ∧ Behind far transport after ∧ Unwritten after receiver.bridge := by
  have hlength : (receiveChunks far.board chunks bridge).inputLine.length ≤ 255 := by
    rw [receiveChunks_eq]
    show (buffered _).length ≤ 255
    rw [length_buffered]
    omega
  obtain hsettled | ⟨message, s', ⟨input, after⟩, hfailed, hclosed, hinput, hunwritten⟩ :=
    connect_cases carries h hlength
  · exact .inl hsettled
  · obtain rfl : input = [] := hinput
    exact .inr ⟨message, s', _, hfailed, hclosed, hunwritten, connect_of_empty carries hclosed⟩

/-- The line of a chip that does not restart, which has been sent a write and the beginning of another,
and whose answer nobody has read. -/
def usedLine : SerialLine Unit :=
  ⟨"ZEROCPU/1 OK\r\n",
    receiveChunks idleBoard ["ZEROCPU/1 WRITE 0 1\nZERO", "CPU/1 WRI"] { pins := () }⟩

/-- The handshake fails behind the beginning of a request, and the next one settles the line. -/
theorem handshake_settles_used :
    let wiring : Wiring := { chattyWiring with restarts := false }
    let bus := WindowsSerialTransport.bus (wiring.port idleBoard) ⟨500, by decide⟩
    ∃ message s' transport after, bus.connect ⟨false, usedLine⟩ = (.error message, ⟨false, s'⟩)
      ∧ bus.connect ⟨false, s'⟩ = (.ok (), transport)
      ∧ Behind (Wiring.farEnd idleBoard) transport after
      ∧ Unwritten after s'.receiver.bridge ∧ Unwritten s'.receiver.bridge usedLine.receiver.bridge := by
  intro wiring bus
  have hfails : (bus.connect ⟨false, usedLine⟩).1.toOption = none := by decide +kernel
  rcases @handshake_settles _ _ (wiring.port idleBoard) _ ⟨500, by decide⟩ (wiring.carries idleBoard)
    ["ZEROCPU/1 WRITE 0 1\nZERO", "CPU/1 WRI"] { pins := () } usedLine rfl with
    ⟨transport, after, hconnect, -⟩
      | ⟨message, s', receiver, hfailed, rfl, hkept, transport, after, hconnect, hbehind, hunwritten⟩
  · have hok : (bus.connect ⟨false, usedLine⟩).1.toOption = some () := by rw [hconnect]; rfl
    rw [hfails] at hok
    cases hok
  · exact ⟨message, s', transport, after, hfailed, hconnect, hbehind, hunwritten, hkept⟩

end Carried

end SerialLine

end ZeroCpu.Hardware
