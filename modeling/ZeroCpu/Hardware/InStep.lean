import Mathlib.Data.List.Basic
import ZeroCpu.Hardware.Firmware
import ZeroCpu.Hardware.Messages

/-!
# Requests and responses in step

The host pairs responses with requests by their order. Here the bridge is compared with a service
that sees whole lines: it answers each line that is not blank once, and a line over the limit with one
error.
-/

namespace ZeroCpu.Hardware.Firmware

open Library Assembler HardwareProtocol

variable {W : Type}

/-! ## The service of whole lines -/

/-- The lines that line feeds end, without carriage returns, and the characters behind the last one.
`current` is the line so far. -/
def linesFrom (current : Str) : Str → List Str × Str
  | [] => ([], current)
  | ch :: rest =>
      if ch = '\n' then (current :: (linesFrom [] rest).1, (linesFrom [] rest).2)
      else if ch ≠ '\r' then linesFrom (current ++ [ch]) rest
      else linesFrom current rest

/-- The answer to a line. -/
def serveLine (board : Board W) (bridge : Bridge W) (line : Str) : Bridge W :=
  if 255 < line.length then sendError "request is too long" bridge
  else handleLine board line bridge

/-- The answer to a line that has not ended yet. -/
def serveTail (bridge : Bridge W) (tail : Str) : Bridge W :=
  if 255 < tail.length then sendError "request is too long" bridge else bridge

/-- The answers to all that was received. -/
def serve (board : Board W) (received : Str) (bridge : Bridge W) : Bridge W :=
  serveTail ((linesFrom [] received).1.foldl (serveLine board) bridge) (linesFrom [] received).2

/-- Calls of `receiveSerialLines`, one for each chunk, on an empty line buffer. -/
def receiveChunks (board : Board W) (chunks : List Str) (bridge : Bridge W) : Receiver W :=
  chunks.foldl (receiveSerialLines board) ⟨[], bridge⟩

/-! ## One answer to a line -/

/-- One more line was printed. -/
def Answered (bridge bridge' : Bridge W) : Prop := ∃ response, bridge'.sent = bridge.sent ++ [response]

theorem answered_println (line : Str) {bridge bridge' : Bridge W} (h : bridge'.sent = bridge.sent) :
    Answered bridge (println line bridge') :=
  ⟨line, congrArg (· ++ [line]) h⟩

/-- Reading a register sends nothing. -/
theorem readRegister_sent (board : Board W) (offset : BitVec 32) (bridge : Bridge W) :
    (readRegister board offset bridge).2.sent = bridge.sent := by
  unfold readRegister
  split_ifs <;> rfl

/-- Writing a register sends nothing. -/
theorem writeRegister_sent {board : Board W} {offset : BitVec 32} {value : Word}
    {bridge bridge' : Bridge W} (h : writeRegister board offset value bridge = .ok bridge') :
    bridge'.sent = bridge.sent := by
  unfold writeRegister at h
  split_ifs at h <;> exact (Except.ok.inj h) ▸ rfl

/-- A read is answered once. -/
theorem answered_serveRead (board : Board W) (offset : BitVec 32) (bridge : Bridge W) :
    Answered bridge (serveRead board offset bridge) := by
  have hsent := readRegister_sent board offset bridge
  rw [serveRead]
  rcases hread : readRegister board offset bridge with ⟨_ | value, bridge'⟩
  · rw [hread] at hsent
    exact answered_println _ hsent
  · rw [hread] at hsent
    exact answered_println _ hsent

/-- A write is answered once. -/
theorem answered_serveWrite (board : Board W) (offset : BitVec 32) (value : Word)
    (bridge : Bridge W) : Answered bridge (serveWrite board offset value bridge) := by
  rw [serveWrite]
  rcases hwrite : writeRegister board offset value bridge with e | bridge'
  · exact answered_println _ rfl
  · exact answered_println _ (writeRegister_sent hwrite)

/-- A read is answered once, also when its offset cannot be parsed. -/
theorem answered_handleRead (board : Board W) (arguments : Str) (bridge : Bridge W) :
    Answered bridge (handleRead board arguments bridge) := by
  unfold handleRead
  split
  · exact answered_println _ rfl
  · exact answered_serveRead board _ bridge

/-- A write is answered once, also when its arguments cannot be parsed. -/
theorem answered_handleWrite (board : Board W) (arguments : Str) (bridge : Bridge W) :
    Answered bridge (handleWrite board arguments bridge) := by
  unfold handleWrite
  split
  · exact answered_println _ rfl
  split_ifs
  · exact answered_println _ rfl
  split
  · exact answered_serveWrite board _ _ bridge
  · exact answered_println _ rfl

theorem handleLine_of_blank (board : Board W) {line : Str} (h : Blank line) (bridge : Bridge W) :
    handleLine board line bridge = bridge :=
  if_pos (trim_eq_nil_iff.mpr h)

/-- Every line that is not blank is answered once. -/
theorem answered_handleLine (board : Board W) {line : Str} (h : ¬ Blank line) (bridge : Bridge W) :
    Answered bridge (handleLine board line bridge) := by
  simp only [handleLine, if_neg (mt trim_eq_nil_iff.mp h)]
  split_ifs
  · exact answered_println _ rfl
  · exact answered_handleRead board _ bridge
  · exact answered_handleWrite board _ bridge
  · exact answered_println _ rfl

/-! ## The buffer -/

/-- How often a line of `n` characters has filled the buffer up. -/
def overflows (line : Str) : ℕ := line.length / 256

/-- What is in the buffer of a line so far. -/
def buffered (line : Str) : Str := line.drop (256 * overflows line)

/-- Answer with an error, so many times. -/
def sendErrors (count : ℕ) (bridge : Bridge W) : Bridge W :=
  (sendError "request is too long")^[count] bridge

/-- The receiver within a line. -/
def within (line : Str) (bridge : Bridge W) : Receiver W :=
  ⟨buffered line, sendErrors (overflows line) bridge⟩

/-- What the bridge does with a line that has ended. -/
def handleEnded (board : Board W) (bridge : Bridge W) (line : Str) : Bridge W :=
  handleLine board (buffered line) (sendErrors (overflows line) bridge)

theorem within_nil (bridge : Bridge W) : within [] bridge = ⟨[], bridge⟩ := rfl

/-- A character that fits the buffer. -/
theorem within_append {line : Str} (h : line.length % 256 < 255) (bridge : Bridge W) (ch : UInt8) :
    within (line ++ [ch]) bridge = ⟨buffered line ++ [ch], sendErrors (overflows line) bridge⟩ := by
  have hoverflows : overflows (line ++ [ch]) = overflows line := by
    rw [overflows, overflows, List.length_append, List.length_singleton]
    omega
  rw [within, buffered, hoverflows, List.drop_append_of_le_length (by rw [overflows]; omega)]
  rfl

/-- A character that fills the buffer up. -/
theorem within_overflow {line : Str} (h : line.length % 256 = 255) (bridge : Bridge W) (ch : UInt8) :
    within (line ++ [ch]) bridge
      = ⟨[], sendError "request is too long" (sendErrors (overflows line) bridge)⟩ := by
  have hoverflows : overflows (line ++ [ch]) = overflows line + 1 := by
    rw [overflows, overflows, List.length_append, List.length_singleton]
    omega
  have hempty : buffered (line ++ [ch]) = [] := by
    rw [buffered, List.drop_eq_nil_iff, hoverflows, overflows, List.length_append,
      List.length_singleton]
    omega
  rw [within, hempty, hoverflows, sendErrors, Function.iterate_succ_apply']
  rfl

theorem length_buffered (line : Str) : (buffered line).length = line.length % 256 := by
  rw [buffered, List.length_drop, overflows]
  omega

/-- A character within a line, which a line break ends. -/
theorem receiveCharacter_within (board : Board W) (line : Str) (bridge : Bridge W) (ch : UInt8) :
    receiveCharacter board (within line bridge) ch
      = if ch = '\n' then within [] (handleEnded board bridge line)
        else if ch ≠ '\r' then within (line ++ [ch]) bridge else within line bridge := by
  rw [receiveCharacter]
  split_ifs with hnewline hreturn hfull
  · rfl
  · have hlength : line.length % 256 = 255 := by
      have : 255 ≤ (buffered line).length := hfull
      rw [length_buffered] at this
      omega
    exact (within_overflow hlength bridge ch).symm
  · have hlength : line.length % 256 < 255 := by
      have : ¬ 255 ≤ (buffered line).length := hfull
      rw [length_buffered] at this
      omega
    exact (within_append hlength bridge ch).symm
  · rfl

/-- Characters received within a line. -/
theorem receive_within (board : Board W) (received : Str) (line : Str) (bridge : Bridge W) :
    receiveSerialLines board (within line bridge) received
      = within (linesFrom line received).2
        ((linesFrom line received).1.foldl (handleEnded board) bridge) := by
  induction received generalizing line bridge with
  | nil => rfl
  | cons ch rest ih =>
    show receiveSerialLines board (receiveCharacter board (within line bridge) ch) rest = _
    rw [receiveCharacter_within, linesFrom]
    split_ifs
    · exact ih [] _
    · exact ih (line ++ [ch]) bridge
    · exact ih line bridge

/-- Chunk boundaries make no difference. -/
theorem receiveChunks_eq (board : Board W) (chunks : List Str) (bridge : Bridge W) :
    receiveChunks board chunks bridge
      = within (linesFrom [] chunks.flatten).2
        ((linesFrom [] chunks.flatten).1.foldl (handleEnded board) bridge) := by
  rw [← receive_within]
  exact List.foldl_flatten.symm

/-! ## When the bridge keeps step -/

/-- A line that the bridge answers as one line: it fits, or its characters behind the first that does
not are blank and fill the buffer no second time. -/
def Fits (line : Str) : Prop :=
  line.length ≤ 255 ∨ line.length ≤ 511 ∧ Blank (line.drop 256)

/-- All lines fit, and the characters behind the last fill the buffer up once at most. -/
def LinesFit (received : Str) : Prop :=
  (∀ line ∈ (linesFrom [] received).1, Fits line) ∧ (linesFrom [] received).2.length ≤ 511

/-- The bridge does what the service of whole lines does. -/
def InStep (board : Board W) (chunks : List Str) (bridge : Bridge W) : Prop :=
  (receiveChunks board chunks bridge).bridge = serve board chunks.flatten bridge

/-- A line that fits into the buffer is handled as it is. -/
theorem handleEnded_of_short (board : Board W) {line : Str} (h : line.length ≤ 255)
    (bridge : Bridge W) : handleEnded board bridge line = handleLine board line bridge := by
  have hnone : overflows line = 0 := Nat.div_eq_of_lt (by omega)
  rw [handleEnded, buffered, hnone]
  rfl

/-- A line that fits is served as a request. -/
theorem handleEnded_of_fits (board : Board W) {line : Str} (h : Fits line) (bridge : Bridge W) :
    handleEnded board bridge line = serveLine board bridge line := by
  rcases Nat.lt_or_ge 255 line.length with hlong | hshort
  · obtain ⟨hlength, hblank⟩ := h.resolve_left (by omega)
    have hone : overflows line = 1 := by rw [overflows]; omega
    rw [serveLine, if_pos hlong, handleEnded, buffered, hone]
    exact handleLine_of_blank board hblank _
  · rw [serveLine, if_neg (by omega), handleEnded_of_short board hshort]

/-! ## Counting responses -/

/-- The responses to a line, once it has ended. -/
def answers (line : Str) : ℕ := if trim line = [] then 0 else 1

/-- The responses that the bridge prints for a line. -/
def responses (line : Str) : ℕ := overflows line + answers (buffered line)

/-- The responses that the line should have. -/
def expected (line : Str) : ℕ := if 255 < line.length then 1 else answers line

/-- A line has as many answers as it should. -/
theorem length_sent_handleLine (board : Board W) (line : Str) (bridge : Bridge W) :
    (handleLine board line bridge).sent.length = bridge.sent.length + answers line := by
  by_cases hblank : Blank line
  · rw [handleLine_of_blank board hblank, answers, if_pos (trim_eq_nil_iff.mpr hblank)]
    rfl
  · obtain ⟨response, hsent⟩ := answered_handleLine board hblank bridge
    rw [hsent, answers, if_neg (mt trim_eq_nil_iff.mp hblank), List.length_append]
    rfl

/-- As many errors are sent as asked for. -/
theorem length_sent_sendErrors (count : ℕ) (bridge : Bridge W) :
    (sendErrors count bridge).sent.length = bridge.sent.length + count := by
  induction count with
  | zero => rfl
  | succ count ih =>
    rw [sendErrors, Function.iterate_succ_apply']
    show (_ ++ [_] : List Str).length = _
    rw [List.length_append, List.length_singleton, ← sendErrors, ih, Nat.add_assoc]

theorem length_sent_handleEnded (board : Board W) (bridge : Bridge W) (line : Str) :
    (handleEnded board bridge line).sent.length = bridge.sent.length + responses line := by
  rw [handleEnded, length_sent_handleLine, length_sent_sendErrors, responses, Nat.add_assoc]

/-- The answers that the host expects to a line. -/
theorem length_sent_serveLine (board : Board W) (bridge : Bridge W) (line : Str) :
    (serveLine board bridge line).sent.length = bridge.sent.length + expected line := by
  rw [serveLine, expected]
  split_ifs
  · exact List.length_append
  · exact length_sent_handleLine board line bridge

/-- A response count that each line adds to is the sum over the lines. -/
theorem length_sent_foldl {step : Bridge W → Str → Bridge W} {count : Str → ℕ}
    (h : ∀ bridge line, (step bridge line).sent.length = bridge.sent.length + count line)
    (lines : List Str) (bridge : Bridge W) :
    (lines.foldl step bridge).sent.length = bridge.sent.length + (lines.map count).sum := by
  induction lines generalizing bridge with
  | nil => rfl
  | cons line lines ih => rw [List.foldl_cons, ih, h, List.map_cons, List.sum_cons, Nat.add_assoc]

/-- The bridge never prints too few responses, and too many for a line that does not fit. -/
theorem expected_le (line : Str) :
    expected line ≤ responses line ∧ (expected line = responses line → Fits line) := by
  rw [expected, responses]
  rcases Nat.lt_or_ge 255 line.length with hlong | hshort
  · have hpos : 1 ≤ overflows line := by rw [overflows]; omega
    rw [if_pos hlong]
    refine ⟨by omega, fun heq => .inr ?_⟩
    have hone : overflows line = 1 := by omega
    have hlength : line.length ≤ 511 := by
      rw [overflows] at hone
      omega
    have hblank : answers (buffered line) = 0 := by omega
    rw [answers, buffered, hone] at hblank
    refine ⟨hlength, trim_eq_nil_iff.mp ?_⟩
    by_contra hne
    rw [if_neg hne] at hblank
    exact Nat.one_ne_zero hblank
  · have hnone : overflows line = 0 := Nat.div_eq_of_lt (by omega)
    rw [if_neg (by omega), buffered, hnone]
    exact ⟨Nat.le_add_left _ _, fun _ => .inl hshort⟩

/-- The bridge answers at least as often as the host expects, and equally often only when every line
fits. -/
theorem sum_expected_le (lines : List Str) :
    (lines.map expected).sum ≤ (lines.map responses).sum
    ∧ ((lines.map expected).sum = (lines.map responses).sum → ∀ line ∈ lines, Fits line) := by
  induction lines with
  | nil => exact ⟨Nat.le_refl 0, fun _ _ hmem => absurd hmem List.not_mem_nil⟩
  | cons line lines ih =>
    obtain ⟨hle, hfits⟩ := expected_le line
    rw [List.map_cons, List.map_cons, List.sum_cons, List.sum_cons]
    refine ⟨Nat.add_le_add hle ih.1, fun heq => List.forall_mem_cons.mpr ⟨hfits ?_, ih.2 ?_⟩⟩ <;>
      omega

/-- The bridge keeps step when all lines fit, and only then. -/
theorem inStep_iff (board : Board W) (chunks : List Str) (bridge : Bridge W) :
    InStep board chunks bridge ↔ LinesFit chunks.flatten := by
  rw [InStep, receiveChunks_eq, serve, LinesFit]
  generalize linesFrom [] chunks.flatten = received
  obtain ⟨lines, tail⟩ := received
  show sendErrors (overflows tail) (lines.foldl (handleEnded board) bridge)
    = serveTail (lines.foldl (serveLine board) bridge) tail ↔ _
  constructor
  · intro h
    -- The two differ by errors sent, so counting what was sent is enough.
    have hlength := congrArg (fun bridge => bridge.sent.length) h
    have htail : ∀ bridge : Bridge W, (serveTail bridge tail).sent.length
        = bridge.sent.length + if 255 < tail.length then 1 else 0 := by
      intro bridge
      rw [serveTail]
      split_ifs
      · exact List.length_append
      · rfl
    simp only [length_sent_sendErrors, htail, length_sent_foldl (length_sent_handleEnded board),
      length_sent_foldl (length_sent_serveLine board)] at hlength
    obtain ⟨hle, hfits⟩ := sum_expected_le lines
    have hcut : (if 255 < tail.length then 1 else 0) ≤ overflows tail := by
      rw [overflows]
      split_ifs <;> omega
    refine ⟨hfits (by omega), ?_⟩
    have hone : overflows tail ≤ 1 := by
      split_ifs at hlength <;> omega
    rw [overflows] at hone
    show tail.length ≤ 511
    omega
  · rintro ⟨hlines, htail⟩
    -- Lines that fit are served alike; of the tail at most one error is due.
    have hfold : lines.foldl (handleEnded board) bridge = lines.foldl (serveLine board) bridge :=
      List.foldl_ext _ _ _ fun bridge line hmem => handleEnded_of_fits board (hlines line hmem) bridge
    rw [hfold, serveTail]
    split_ifs with hlong
    · have hone : overflows tail = 1 := by
        have : tail.length ≤ 511 := htail
        rw [overflows]
        omega
      rw [hone]
      rfl
    · have hnone : overflows tail = 0 := Nat.div_eq_of_lt (by omega)
      rw [hnone]
      rfl

/-! ## Requests of the host -/

/-- A request and its line break are one line. -/
theorem linesFrom_append {line : Str} (hnewline : 10 ∉ line) (hreturn : 13 ∉ line) (current : Str) :
    linesFrom current (line ++ "\n") = ([current ++ line], []) := by
  induction line generalizing current with
  | nil => rw [List.append_nil]; rfl
  | cons ch line ih =>
    rw [List.mem_cons, not_or] at hnewline hreturn
    have hch : ch ≠ '\n'.toUInt8 := Ne.symm hnewline.1
    have hch' : ch ≠ '\r'.toUInt8 := Ne.symm hreturn.1
    rw [List.cons_append, linesFrom, if_neg hch, if_pos hch', ih hnewline.2 hreturn.2,
      List.append_assoc, List.singleton_append]

/-- A line that fits the buffer is handled whole, wherever it is cut into chunks. -/
theorem receiveChunks_line (board : Board W) (line : Str) (hnewline : 10 ∉ line) (hreturn : 13 ∉ line)
    (hlength : line.length ≤ 255) {chunks : List Str} (hchunks : chunks.flatten = line ++ "\n")
    (bridge : Bridge W) :
    receiveChunks board chunks bridge = ⟨[], handleLine board line bridge⟩ := by
  rw [receiveChunks_eq, hchunks, linesFrom_append hnewline hreturn, within_nil, List.nil_append,
    List.foldl_cons, List.foldl_nil, handleEnded_of_short board hlength]

/-- A numeral has no zero byte. -/
theorem cStr_text (numeral : DecimalNumeral) : cStr numeral.text = numeral.text := by
  refine List.takeWhile_eq_self_iff.mpr fun ch hch => ?_
  rcases List.mem_append.mp hch with hch | hch
  · have hsign : ∀ sign, ∀ ch ∈ DecimalNumeral.signText sign, (ch != 0) = true := by
      intro sign
      cases sign <;> decide
    exact hsign _ ch hch
  · have hdigit : ∀ ch : UInt8, isDigit ch = true → (ch != 0) = true :=
      forall_byte (by decide +kernel)
    exact hdigit ch (isDigit_of_mem_digits ch hch)

/-- An offset of 32 bits is parsed as it was written. -/
theorem parseUnsigned_toStr {n : ℕ} (h : n < 2 ^ 32) :
    parseUnsigned (toStr n) = some (BitVec.ofNat 32 n) := by
  obtain ⟨numeral, htext, hvalue⟩ := exists_decimal n
  have hsigned : signed (decide (numeral.sign = .minus)) numeral.magnitude = n := by
    rw [← numeral.value_eq, hvalue]
  rw [← intToStr_natCast, ← htext, parseUnsigned, if_neg numeral.text_ne_nil, cStr_text,
    scanNumber_text]
  cases hminus : decide (numeral.sign = .minus) with
  | true =>
    rw [hminus, signed, if_pos rfl] at hsigned
    obtain ⟨rfl, hzero⟩ : n = 0 ∧ numeral.magnitude = 0 := by omega
    simp only [hzero]
    rfl
  | false =>
    rw [hminus, signed, if_neg Bool.false_ne_true] at hsigned
    obtain rfl : numeral.magnitude = n := by omega
    simp only [if_pos h]
    rfl

/-- A value is parsed as it was written. -/
theorem parseSigned_intToStr (value : Word) : parseSigned (intToStr value.toInt) = some value := by
  obtain ⟨numeral, htext, hvalue⟩ := exists_decimal value.toInt
  have hsigned : signed (decide (numeral.sign = .minus)) numeral.magnitude = value.toInt := by
    rw [← numeral.value_eq, hvalue]
  have hle := BitVec.le_toInt value
  have hlt := BitVec.toInt_lt (x := value)
  rw [← htext, parseSigned, if_neg numeral.text_ne_nil, cStr_text, scanNumber_text]
  simp only [hsigned]
  rw [if_pos (by omega), BitVec.ofInt_toInt]

/-- A command and its arguments have no white space at their ends. -/
theorem trim_append {first : UInt8} {front field : Str} (hfirst : isSpace first = false)
    (hfield : Solid field ∧ field ≠ []) : trim (first :: front ++ field) = first :: front ++ field := by
  refine trim_of_trimmed ⟨fun ch hch => ?_, fun ch hch => ?_⟩
  · obtain rfl := Option.some.inj hch
    exact hfirst
  · rw [List.getLast?_append, List.getLast?_eq_some_getLast hfield.2] at hch
    obtain rfl := Option.some.inj hch
    exact hfield.1 _ (List.getLast_mem hfield.2)

/-- The line of a read request is served as that read. -/
theorem handleLine_read (board : Board W) {n : ℕ} (h : n < 2 ^ 32) (bridge : Bridge W) :
    handleLine board (kReadPrefix ++ toStr n) bridge = serveRead board (BitVec.ofNat 32 n) bridge := by
  have htrim : trim (kReadPrefix ++ toStr n) = kReadPrefix ++ toStr n :=
    trim_append (by decide) (solid_toStr_nat n)
  have hping : kReadPrefix ++ toStr n ≠ Str.ofString "ZEROCPU/1 PING" := fun heq =>
    absurd (congrArg (fun text => text[10]?) heq) (show some (82 : UInt8) ≠ some 80 by decide)
  have hread : kReadPrefix.isPrefixOf (kReadPrefix ++ toStr n) = true := rfl
  simp only [handleLine, htrim, if_neg hping, hread, if_true, List.drop_left, handleRead,
    parseUnsigned_toStr h]
  rfl

/-- Two fields are split at the blank between them. -/
theorem splitOnce_append {first rest : Str} (hfirst : Solid first) (hrest : Solid rest) :
    splitOnce (first ++ ' '.toUInt8 :: rest) = some (first, rest) := by
  have hne : ∀ ch ∈ first, (ch != ' '.toUInt8) = true := fun ch hch => by
    rw [bne_iff_ne]
    rintro rfl
    exact absurd (hfirst _ hch) (by decide)
  rw [splitOnce, List.span_eq_takeWhile_dropWhile, List.takeWhile_append_of_pos hne,
    List.dropWhile_append_of_pos hne]
  simp only [List.takeWhile_cons, List.dropWhile_cons, bne_self_eq_false, Bool.false_eq_true,
    if_false, List.append_nil, trim_of_trimmed hrest.trimmed]

/-- The line of a write request is served as that write. -/
theorem handleLine_write (board : Board W) {n : ℕ} (h : n < 2 ^ 32) (value : Word)
    (bridge : Bridge W) :
    handleLine board (kWritePrefix ++ (toStr n ++ ' '.toUInt8 :: intToStr value.toInt)) bridge
      = serveWrite board (BitVec.ofNat 32 n) value bridge := by
  obtain ⟨hsolid, hne⟩ := solid_intToStr value.toInt
  have htrim : trim (kWritePrefix ++ (toStr n ++ ' '.toUInt8 :: intToStr value.toInt))
      = kWritePrefix ++ (toStr n ++ ' '.toUInt8 :: intToStr value.toInt) := by
    have hline : kWritePrefix ++ (toStr n ++ ' '.toUInt8 :: intToStr value.toInt)
        = (kWritePrefix ++ (toStr n ++ [' '.toUInt8])) ++ intToStr value.toInt := by
      simp only [List.append_assoc, List.singleton_append]
    rw [hline]
    exact trim_append (by decide) ⟨hsolid, hne⟩
  have hping : kWritePrefix ++ (toStr n ++ ' '.toUInt8 :: intToStr value.toInt)
      ≠ Str.ofString "ZEROCPU/1 PING" := fun heq =>
    absurd (congrArg (fun text => text[10]?) heq) (show some (87 : UInt8) ≠ some 80 by decide)
  have hread : kReadPrefix.isPrefixOf (kWritePrefix ++ (toStr n ++ ' '.toUInt8 :: intToStr value.toInt))
      = false := rfl
  have hwrite : kWritePrefix.isPrefixOf
      (kWritePrefix ++ (toStr n ++ ' '.toUInt8 :: intToStr value.toInt)) = true := rfl
  have hspace : ¬ (intToStr value.toInt = [] ∨ ' '.toUInt8 ∈ intToStr value.toInt) :=
    not_or.mpr ⟨hne, fun hmem => absurd (hsolid _ hmem) (by decide)⟩
  simp only [handleLine, htrim, if_neg hping, hread, hwrite, if_true, List.drop_left, handleWrite,
    splitOnce_append (solid_toStr_nat n).1 hsolid, if_neg hspace, parseUnsigned_toStr h,
    parseSigned_intToStr]
  rfl

/-- A number has at most as many digits as its bound. -/
theorem length_toStr_le {n k : ℕ} (hk : 0 < k) (h : n < 10 ^ k) : (toStr n).length ≤ k := by
  have hprinted : (toStr n).length = (Nat.toDigits 10 n).length := by
    show (((toString n).toList).map Char.toUInt8).length = _
    rw [List.length_map, Nat.toString_eq_ofList_toDigits, String.toList_ofList]
  rw [hprinted]
  exact (Nat.length_toDigits_le_iff (by decide) hk).mpr h

/-- A value has at most twenty characters. -/
theorem length_intToStr_le (value : Word) : (intToStr value.toInt).length ≤ 20 := by
  have hle := BitVec.le_toInt value
  have hlt := BitVec.toInt_lt (x := value)
  rcases Int.lt_or_le value.toInt 0 with hneg | hnonneg
  · obtain ⟨n, hn⟩ : ∃ n : ℕ, value.toInt = -n := ⟨value.toInt.natAbs, by omega⟩
    have hlength := @length_toStr_le n 19 (by decide) (by omega)
    rw [hn, intToStr_neg n (by omega), List.length_cons]
    omega
  · obtain ⟨n, hn⟩ := Int.eq_ofNat_of_zero_le hnonneg
    have hlength := @length_toStr_le n 19 (by decide) (by omega)
    rw [hn, intToStr_natCast]
    omega

theorem notMem_of_solid {text : Str} (h : Solid text) : 10 ∉ text ∧ 13 ∉ text :=
  ⟨fun hmem => absurd (h 10 hmem) (by decide), fun hmem => absurd (h 13 hmem) (by decide)⟩

/-- A ping is answered, in any chunks. -/
theorem receive_ping (board : Board W) {chunks : List Str} (h : chunks.flatten = pingRequest)
    (bridge : Bridge W) : receiveChunks board chunks bridge = ⟨[], sendPong bridge⟩ := by
  have hline : handleLine board "ZEROCPU/1 PING" bridge = sendPong bridge := by
    have htrim : trim "ZEROCPU/1 PING" = Str.ofString "ZEROCPU/1 PING" := by decide +kernel
    simp only [handleLine, htrim]
    rfl
  rw [receiveChunks_line board "ZEROCPU/1 PING" (by decide) (by decide) (by decide) h, hline]

/-- A read request is served, in any chunks. -/
theorem receive_read (board : Board W) {offset : Word} (hoffset : offset.toNat < 2 ^ 32)
    {chunks : List Str} (h : chunks.flatten = readRequest offset) (bridge : Bridge W) :
    receiveChunks board chunks bridge
      = ⟨[], serveRead board (BitVec.ofNat 32 offset.toNat) bridge⟩ := by
  obtain ⟨hnewline, hreturn⟩ := notMem_of_solid (solid_toStr_nat offset.toNat).1
  have hlength := @length_toStr_le offset.toNat 10 (by decide) (by omega)
  have hprefix : kReadPrefix.length = 15 := rfl
  rw [receiveChunks_line board (kReadPrefix ++ toStr offset.toNat) ?_ ?_ ?_ h,
    handleLine_read board hoffset]
  · exact fun hmem => (List.mem_append.mp hmem).elim (by decide) hnewline
  · exact fun hmem => (List.mem_append.mp hmem).elim (by decide) hreturn
  · rw [List.length_append]
    omega

/-- A write request is served, in any chunks. -/
theorem receive_write (board : Board W) {offset : Word} (hoffset : offset.toNat < 2 ^ 32) (value : Word)
    {chunks : List Str} (h : chunks.flatten = writeRequest offset value) (bridge : Bridge W) :
    receiveChunks board chunks bridge
      = ⟨[], serveWrite board (BitVec.ofNat 32 offset.toNat) value bridge⟩ := by
  obtain ⟨hnewline, hreturn⟩ := notMem_of_solid (solid_toStr_nat offset.toNat).1
  obtain ⟨hnewline', hreturn'⟩ := notMem_of_solid (solid_intToStr value.toInt).1
  have hlength := @length_toStr_le offset.toNat 10 (by decide) (by omega)
  have hlength' := length_intToStr_le value
  have hprefix : kWritePrefix.length = 16 := rfl
  have hsent : writeRequest offset value
      = kWritePrefix ++ (toStr offset.toNat ++ ' '.toUInt8 :: intToStr value.toInt) ++ "\n" := by
    simp only [writeRequest, List.append_assoc]
    rfl
  rw [hsent] at h
  rw [receiveChunks_line board _ ?_ ?_ ?_ h, handleLine_write board hoffset]
  · simp only [List.mem_append, List.mem_cons, not_or]
    exact ⟨by decide, hnewline, by decide, hnewline'⟩
  · simp only [List.mem_append, List.mem_cons, not_or]
    exact ⟨by decide, hreturn, by decide, hreturn'⟩
  · rw [List.length_append, List.length_append, List.length_cons]
    omega

/-- The bridge answers each line once exactly when the lines fit its buffer, and does what the host
asks for. -/
theorem bridge_in_step (board : Board W) (bridge : Bridge W) :
    (∀ chunks, InStep board chunks bridge ↔ LinesFit chunks.flatten)
    ∧ (∀ line : Str,
        (255 < line.length → serveLine board bridge line = sendError "request is too long" bridge)
        ∧ (line.length ≤ 255 → Blank line → serveLine board bridge line = bridge)
        ∧ (line.length ≤ 255 → ¬ Blank line → Answered bridge (serveLine board bridge line)))
    ∧ (∀ chunks, chunks.flatten = pingRequest →
        receiveChunks board chunks bridge = ⟨[], sendPong bridge⟩)
    ∧ (∀ (offset : Word) chunks, offset.toNat < 2 ^ 32 → chunks.flatten = readRequest offset →
        receiveChunks board chunks bridge
          = ⟨[], serveRead board (BitVec.ofNat 32 offset.toNat) bridge⟩)
    ∧ ∀ (offset value : Word) chunks, offset.toNat < 2 ^ 32 →
        chunks.flatten = writeRequest offset value →
        receiveChunks board chunks bridge
          = ⟨[], serveWrite board (BitVec.ofNat 32 offset.toNat) value bridge⟩ := by
  refine ⟨fun chunks => inStep_iff board chunks bridge, fun line => ⟨fun hlong => if_pos hlong,
    fun hshort hblank => ?_, fun hshort hblank => ?_⟩, fun chunks h => receive_ping board h bridge,
    fun offset chunks hoffset h => receive_read board hoffset h bridge,
    fun offset value chunks hoffset h => receive_write board hoffset value h bridge⟩
  · rw [serveLine, if_neg (by omega), handleLine_of_blank board hblank]
  · rw [serveLine, if_neg (by omega)]
    exact answered_handleLine board hblank bridge

/-- A board whose pins do nothing. -/
def idleBoard : Board Unit where
  digitalRead _ _ := (0, ())
  analogRead _ _ := (0, ())
  digitalWrite _ _ _ := ()
  analogWrite _ _ _ := ()

/-- A write request in two chunks. -/
theorem bridge_in_step_idle :
    receiveChunks idleBoard ["ZEROCPU/1 WRI", "TE 0 -1\n"] { pins := () }
      = ⟨[], serveWrite idleBoard (BitVec.ofNat 32 (0 : Word).toNat) (-1) { pins := () }⟩ :=
  (bridge_in_step idleBoard { pins := () }).2.2.2.2 0 (-1) _ (by decide) (by decide +kernel)

/-- The end of a line that is too long is taken for a request of its own. -/
theorem long_line_answered_twice :
    ∃ line : Str, line.length = 270 ∧ (10 : UInt8) ∉ line
      ∧ (receiveChunks idleBoard [line, "\n"] { pins := () }).bridge.sent
        = ["ZEROCPU/1 ERROR request is too long", "ZEROCPU/1 PONG"]
      ∧ ¬ InStep idleBoard [line, "\n"] { pins := () } := by
  refine ⟨List.replicate 256 'x'.toUInt8 ++ "ZEROCPU/1 PING", by decide +kernel, by decide +kernel, by decide +kernel, ?_⟩
  rw [InStep]
  decide +kernel

end ZeroCpu.Hardware.Firmware
