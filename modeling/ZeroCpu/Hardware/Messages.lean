import ZeroCpu.Hardware.Requests

/-!
# Messages are read back

Every message of the hardware protocol is read back by its parser, with a line feed, a carriage
return and a line feed, or nothing at its end.
-/

namespace ZeroCpu.Hardware

open Library Assembler

/-! ## Printed numbers -/

/-- A printed number is a decimal numeral for it. -/
theorem exists_decimal (value : ℤ) : ∃ numeral : DecimalNumeral, numeral.text = intToStr value
    ∧ numeral.value = value := by
  rcases Int.lt_or_le value 0 with hneg | hnonneg
  · obtain ⟨n, rfl⟩ : ∃ n : ℕ, value = -n := ⟨value.natAbs, by omega⟩
    obtain ⟨first, rest, htext, hvalue, -, -⟩ := exists_digits n
    refine ⟨⟨.minus, first :: rest, List.cons_ne_nil _ _⟩, ?_, ?_⟩
    · rw [intToStr_neg n (by omega), htext]
      rfl
    · exact congrArg (fun m : ℕ => -(m : ℤ)) hvalue
  · obtain ⟨n, rfl⟩ := Int.eq_ofNat_of_zero_le hnonneg
    obtain ⟨first, rest, htext, hvalue, -, -⟩ := exists_digits n
    refine ⟨⟨.none, first :: rest, List.cons_ne_nil _ _⟩, ?_, ?_⟩
    · rw [intToStr_natCast, htext]
      rfl
    · exact congrArg (fun m : ℕ => (m : ℤ)) hvalue

/-- A signed number is a field. -/
theorem solid_intToStr (value : ℤ) : Solid (intToStr value) ∧ intToStr value ≠ [] := by
  obtain ⟨numeral, htext, -⟩ := exists_decimal value
  rw [← htext]
  exact ⟨numeral.solid_text, numeral.text_ne_nil⟩

theorem solid_toStr_nat (n : ℕ) : Solid (toStr n) ∧ toStr n ≠ [] := by
  rw [← intToStr_natCast]
  exact solid_intToStr n

/-- An offset is parsed as it was written. -/
theorem parseOffset_toStr (offset : Word) : parseOffset (toStr offset.toNat) = .ok offset := by
  obtain ⟨numeral, htext, hvalue⟩ := exists_decimal offset.toNat
  have hmagnitude : numeral.magnitude < 2 ^ 64 := by
    have hlt := offset.isLt
    rw [numeral.value_eq, signed] at hvalue
    split_ifs at hvalue <;> omega
  rw [parseOffset_eq_ok (solid_toStr_nat _)]
  refine ⟨numeral, htext, hmagnitude, ?_⟩
  rw [hvalue, BitVec.ofInt_natCast, BitVec.ofNat_toNat, BitVec.setWidth_eq]

/-- A value is parsed as it was written. -/
theorem parseValue_intToStr (value : Word) : parseValue (intToStr value.toInt) = .ok value := by
  obtain ⟨numeral, htext, hvalue⟩ := exists_decimal value.toInt
  rw [parseValue_eq_ok (solid_intToStr _)]
  refine ⟨numeral, htext, ?_, ?_⟩
  · have := BitVec.le_toInt value
    have := BitVec.toInt_lt (x := value)
    omega
  · rw [hvalue, BitVec.ofInt_toInt]

/-! ## Endings of a line -/

/-- A message as it may arrive: as it was sent, without its line feed, or with a carriage return in
front of it. -/
inductive Delivered (message : Str) : Str → Prop
  | whole : Delivered message message
  | unterminated : Delivered message message.dropLast
  | carriageReturn : Delivered message (message.dropLast ++ "\r\n")

/-- The characters that end a line. -/
def isLineEnding (ch : UInt8) : Bool := ch == '\n' || ch == '\r'

/-- A delivered line is the line behind other characters that end it. -/
theorem Delivered.exists_ending {body text : Str} (h : Delivered (body ++ "\n") text) :
    ∃ ending, (∀ ch ∈ ending, isLineEnding ch = true) ∧ text = body ++ ending := by
  have hdrop : (body ++ Str.ofString "\n").dropLast = body := List.dropLast_concat
  cases h with
  | whole => exact ⟨"\n", by decide, rfl⟩
  | unterminated => exact ⟨[], nofun, by rw [hdrop, List.append_nil]⟩
  | carriageReturn => exact ⟨"\r\n", by decide, by rw [hdrop]⟩

/-- Exactly the line ending is cut off. -/
theorem trimLineEndings_append {body ending : Str} (hending : ∀ ch ∈ ending, isLineEnding ch = true)
    (hlast : ∀ ch ∈ body.getLast?, isLineEnding ch = false) :
    trimLineEndings (body ++ ending) = body := by
  have hreversed : ∀ ch ∈ ending.reverse, isLineEnding ch = true := fun ch hch =>
    hending ch (List.mem_reverse.mp hch)
  show ((body ++ ending).reverse.dropWhile isLineEnding).reverse = body
  rw [List.reverse_append, List.dropWhile_append_of_pos hreversed]
  have hhead : ∀ ch ∈ body.reverse.head?, isLineEnding ch = false := by
    rw [List.head?_reverse]
    exact hlast
  cases hbody : body.reverse with
  | nil => rw [List.reverse_eq_nil_iff.mp hbody]; rfl
  | cons ch rest =>
    rw [hbody] at hhead
    rw [List.dropWhile_cons_of_neg (by simp [hhead ch rfl]), ← hbody, List.reverse_reverse]

/-- The last character of a field ends no line. -/
theorem not_lineEnding_of_solid {field : Str} (h : Solid field ∧ field ≠ []) (front : Str) :
    ∀ ch ∈ (front ++ field).getLast?, isLineEnding ch = false := by
  intro ch hch
  have hspace : ∀ ch : UInt8, isSpace ch = false → isLineEnding ch = false :=
    forall_byte (by decide +kernel)
  rw [List.getLast?_append, List.getLast?_eq_some_getLast h.2] at hch
  obtain rfl := Option.some.inj hch
  exact hspace _ (h.1 _ (List.getLast_mem h.2))

/-! ## Lines of fields -/

/-- The fields behind the first one, each behind a space. -/
def spaced (others : List Str) : Str := others.flatMap fun field => ' '.toUInt8 :: field

/-- What follows a field is a blank, or nothing. -/
theorem head_spaced (others : List Str) : ∀ ch ∈ (spaced others).head?, isSpace ch = true := by
  intro ch hch
  cases others with
  | nil => cases hch
  | cons field others =>
    obtain rfl := Option.some.inj hch
    decide

/-- The fields are read back. -/
theorem fields_spaced {others : List Str} (h : ∀ field ∈ others, Solid field ∧ field ≠ []) :
    fields (spaced others) = others := by
  induction others with
  | nil => rfl
  | cons field others ih =>
    obtain ⟨⟨hsolid, hne⟩, hothers⟩ := List.forall_mem_cons.mp h
    have hgap : Blank [' '.toUInt8] := fun ch hch => by rw [List.mem_singleton.mp hch]; decide
    show fields ([' '.toUInt8] ++ (field ++ spaced others)) = _
    rw [fields_blank_append hgap, fields_cons hsolid hne (head_spaced others), ih hothers]

/-- The first field is taken. -/
theorem requireToken_spaced {field : Str} {others : List Str} (h : Solid field ∧ field ≠ [])
    (message : Str) :
    requireToken (spaced (field :: others)) message = .ok (field, spaced others) := by
  have hgap : Blank [' '.toUInt8] := fun ch hch => by rw [List.mem_singleton.mp hch]; decide
  have hnext : nextToken (spaced (field :: others)) = (field, spaced others) :=
    nextToken_append hgap h.1 h.2 (head_spaced others)
  obtain ⟨first, rest, rfl⟩ := List.exists_cons_of_ne_nil h.2
  rw [requireToken, readToken, hnext]

theorem requireNoExtraToken_nil : requireNoExtraToken (spaced []) = .ok () := rfl

/-! ## Requests -/

namespace HardwareProtocol

theorem solid_version : Solid kVersion ∧ kVersion ≠ [] := ⟨by unfold Solid; decide, by decide⟩

/-- A request line has its fields however it is delivered. -/
theorem fields_delivered (others : List Str) {text : Str}
    (h : ∀ field ∈ others, Solid field ∧ field ≠ [])
    (hdelivered : Delivered (kVersion ++ spaced others ++ "\n") text) :
    fields text = kVersion :: others := by
  obtain ⟨ending, hending, rfl⟩ := hdelivered.exists_ending
  have hblank : Blank ending := by
    have hspace : ∀ ch : UInt8, isLineEnding ch = true → isSpace ch = true :=
      forall_byte (by decide +kernel)
    exact fun ch hch => hspace ch (hending ch hch)
  rw [fields, fieldsFrom_append_blank hblank]
  show fields (kVersion ++ spaced others) = _
  rw [fields_cons solid_version.1 solid_version.2 (head_spaced others), fields_spaced h]

/-- A read request, by its fields. -/
theorem readRequest_eq (offset : Word) :
    readRequest offset = kVersion ++ spaced ["READ", toStr offset.toNat] ++ "\n" := by
  simp only [readRequest, spaced, List.flatMap_cons, List.flatMap_nil, List.append_nil]
  rfl

/-- A write request, by its fields. -/
theorem writeRequest_eq (offset value : Word) : writeRequest offset value
    = kVersion ++ spaced ["WRITE", toStr offset.toNat, intToStr value.toInt] ++ "\n" := by
  simp only [writeRequest, spaced, List.flatMap_cons, List.flatMap_nil, List.append_nil,
    List.append_assoc]
  rfl

/-- A value response, by its fields. -/
theorem valueResponse_eq (value : Word) :
    valueResponse value = kVersion ++ spaced ["VALUE", intToStr value.toInt] ++ "\n" := by
  simp only [valueResponse, spaced, List.flatMap_cons, List.flatMap_nil, List.append_nil]
  rfl

/-- The commands are fields. -/
theorem solid_commands : ∀ command ∈ (["PING", "READ", "WRITE", "PONG", "OK", "VALUE", "ERROR"] : List Str),
    Solid command ∧ command ≠ [] := by
  unfold Solid
  decide

/-- A ping is parsed, with any line ending. -/
theorem parseRequest_ping {text : Str} (h : Delivered pingRequest text) :
    parseRequest text = .ok { type := .Ping } := by
  rw [parseRequest_eq, fields_delivered ["PING"] ?_ h]
  · rfl
  · exact fun field hfield => solid_commands field (by rw [List.mem_singleton.mp hfield]; decide)

/-- A read request is parsed, with any line ending. -/
theorem parseRequest_read {offset : Word} {text : Str} (h : Delivered (readRequest offset) text) :
    parseRequest text = .ok { type := .Read, offset := offset } := by
  rw [readRequest_eq] at h
  rw [parseRequest_eq, fields_delivered _ ?_ h]
  · exact requestOf_eq_ok.mpr (.inr (.inl ⟨_, _, rfl, parseOffset_toStr offset, rfl⟩))
  · exact List.forall_mem_cons.mpr ⟨solid_commands _ (by decide),
      List.forall_mem_cons.mpr ⟨solid_toStr_nat _, nofun⟩⟩

/-- A write request is parsed, with any line ending. -/
theorem parseRequest_write {offset value : Word} {text : Str}
    (h : Delivered (writeRequest offset value) text) :
    parseRequest text = .ok { type := .Write, offset := offset, value := value } := by
  rw [writeRequest_eq] at h
  rw [parseRequest_eq, fields_delivered _ ?_ h]
  · exact requestOf_eq_ok.mpr (.inr (.inr ⟨_, _, _, _, rfl, parseOffset_toStr offset,
      parseValue_intToStr value, rfl⟩))
  · exact List.forall_mem_cons.mpr ⟨solid_commands _ (by decide),
      List.forall_mem_cons.mpr ⟨solid_toStr_nat _, List.forall_mem_cons.mpr ⟨solid_intToStr _, nofun⟩⟩⟩

/-! ## Responses -/

/-- The version is taken first. -/
theorem requireToken_version (message : Str) {rest : Str}
    (hrest : ∀ ch ∈ rest.head?, isSpace ch = true) :
    requireToken (kVersion ++ rest) message = .ok (kVersion, rest) := by
  have hnext : nextToken (kVersion ++ rest) = (kVersion, rest) :=
    nextToken_append .nil solid_version.1 solid_version.2 hrest
  rw [requireToken, readToken, hnext]
  rfl

/-- A delivered line of a response, its endings cut off. -/
theorem trimLineEndings_delivered (body : Str) {text : Str} (h : Delivered (body ++ "\n") text)
    (hlast : ∀ ch ∈ body.getLast?, isLineEnding ch = false) : trimLineEndings text = body := by
  obtain ⟨ending, hending, rfl⟩ := h.exists_ending
  exact trimLineEndings_append hending hlast

/-- A pong is parsed, with any line ending. -/
theorem parseResponse_pong {text : Str} (h : Delivered pongResponse text) :
    parseResponse text = .ok { type := .Pong } := by
  have htrim := trimLineEndings_delivered (kVersion ++ spaced ["PONG"]) h (by rintro _ ⟨⟩; rfl)
  rw [parseResponse, htrim]
  rfl

/-- An acknowledgement is parsed, with any line ending. -/
theorem parseResponse_ok {text : Str} (h : Delivered okResponse text) :
    parseResponse text = .ok { type := .Ok } := by
  have htrim := trimLineEndings_delivered (kVersion ++ spaced ["OK"]) h (by rintro _ ⟨⟩; rfl)
  rw [parseResponse, htrim]
  rfl

/-- A value response is parsed, with any line ending. -/
theorem parseResponse_value {value : Word} {text : Str} (h : Delivered (valueResponse value) text) :
    parseResponse text = .ok { type := .Value, value := value } := by
  rw [valueResponse_eq] at h
  have hvalue := solid_intToStr value.toInt
  have hlast : ∀ ch ∈ (kVersion ++ spaced ["VALUE", intToStr value.toInt]).getLast?,
      isLineEnding ch = false := by
    have hbody : kVersion ++ spaced ["VALUE", intToStr value.toInt]
        = (kVersion ++ " VALUE " : Str) ++ intToStr value.toInt := by
      simp only [spaced, List.flatMap_cons, List.flatMap_nil, List.append_nil, List.append_assoc]
      rfl
    rw [hbody]
    exact not_lineEnding_of_solid hvalue _
  rw [parseResponse, trimLineEndings_delivered _ h hlast]
  simp only [requireToken_version _ (head_spaced _), requireToken_spaced (solid_commands "VALUE" (by decide)),
    requireToken_spaced hvalue, requireNoExtraToken_nil, ok_bind, parseValue_intToStr]
  rfl

/-- The message of an error is what follows the blank. -/
theorem errorMessage_cons {message : Str} (hne : message ≠ []) (hline : 10 ∉ message) :
    errorMessage (' '.toUInt8 :: message) = message := by
  have hrest : restOfLine (' '.toUInt8 :: message) = ' '.toUInt8 :: message :=
    restOfLine_of_no_newline fun h => (List.mem_cons.mp h).elim (by decide) hline
  simp only [errorMessage, hrest, List.head?_cons, if_true, List.tail_cons, if_neg hne]

/-- The message of an error response keeps all of its spaces. -/
theorem parseResponse_error {message text : Str} (hne : message ≠ []) (hline : 10 ∉ message)
    (hlast : message.getLast? ≠ some 13) (h : Delivered (errorResponse message) text) :
    parseResponse text = .ok { type := .Error, message := message } := by
  have hbody : errorResponse message
      = kVersion ++ (spaced ["ERROR"] ++ ' '.toUInt8 :: message) ++ "\n" := by
    simp only [errorResponse, List.append_assoc]
    rfl
  -- The message does not end in a line ending, so only the one that was sent is cut off.
  have hend : ∀ ch ∈ (kVersion ++ (spaced ["ERROR"] ++ ' '.toUInt8 :: message)).getLast?,
      isLineEnding ch = false := by
    intro ch hch
    have hmessage : ch ∈ message.getLast? := by
      rw [List.append_cons, ← List.append_assoc, List.getLast?_append,
        List.getLast?_eq_some_getLast hne] at hch
      rwa [List.getLast?_eq_some_getLast hne]
    have hnewline : ch ≠ 10 := fun heq => hline (heq ▸ List.mem_of_getLast? hmessage)
    have hreturn : ch ≠ 13 := fun heq => hlast (heq ▸ hmessage)
    exact Bool.or_eq_false_iff.mpr ⟨beq_eq_false_iff_ne.mpr hnewline, beq_eq_false_iff_ne.mpr hreturn⟩
  have hcommand : nextToken (spaced ["ERROR"] ++ ' '.toUInt8 :: message)
      = (Str.ofString "ERROR", ' '.toUInt8 :: message) := by
    have hgap : Blank [' '.toUInt8] := fun ch hch => by rw [List.mem_singleton.mp hch]; decide
    have herror := solid_commands "ERROR" (by decide)
    refine nextToken_append hgap herror.1 herror.2 fun ch hch => ?_
    obtain rfl := Option.some.inj hch
    decide
  have hspace : ∀ ch ∈ (spaced ["ERROR"] ++ ' '.toUInt8 :: message).head?, isSpace ch = true :=
    head_spaced ["ERROR"]
  rw [parseResponse, trimLineEndings_delivered _ (hbody ▸ h) hend]
  simp only [requireToken_version _ hspace, ok_bind]
  simp only [requireToken, readToken, hcommand]
  show Except.ok _ = _
  rw [errorMessage_cons hne hline]

/-- Messages are read back however their line ends. -/
theorem messages_round_trip :
    (∀ text, Delivered pingRequest text → parseRequest text = .ok { type := .Ping })
    ∧ (∀ offset text, Delivered (readRequest offset) text →
        parseRequest text = .ok { type := .Read, offset := offset })
    ∧ (∀ offset value text, Delivered (writeRequest offset value) text →
        parseRequest text = .ok { type := .Write, offset := offset, value := value })
    ∧ (∀ text, Delivered pongResponse text → parseResponse text = .ok { type := .Pong })
    ∧ (∀ text, Delivered okResponse text → parseResponse text = .ok { type := .Ok })
    ∧ (∀ value text, Delivered (valueResponse value) text →
        parseResponse text = .ok { type := .Value, value := value })
    ∧ ∀ message text, message ≠ [] → 10 ∉ message → message.getLast? ≠ some 13 →
        Delivered (errorResponse message) text →
        parseResponse text = .ok { type := .Error, message := message } :=
  ⟨fun _ => parseRequest_ping, fun _ _ => parseRequest_read, fun _ _ _ => parseRequest_write,
    fun _ => parseResponse_pong, fun _ => parseResponse_ok, fun _ _ => parseResponse_value,
    fun _ _ => parseResponse_error⟩

/-- A ping, and an error whose message has blanks in it. -/
theorem messages_round_trip_spaces :
    parseRequest pingRequest = .ok { type := .Ping }
    ∧ parseRequest ((readRequest 8).dropLast ++ "\r\n") = .ok { type := .Read, offset := 8 }
    ∧ parseRequest (writeRequest 0 (-1)).dropLast = .ok { type := .Write, offset := 0, value := -1 }
    ∧ parseResponse pongResponse = .ok { type := .Pong }
    ∧ parseResponse okResponse.dropLast = .ok { type := .Ok }
    ∧ parseResponse (valueResponse 42) = .ok { type := .Value, value := 42 }
    ∧ parseResponse (errorResponse "  two  words ")
      = .ok { type := .Error, message := "  two  words " } := by
  obtain ⟨hping, hread, hwrite, hpong, hok, hvalue, herror⟩ := messages_round_trip
  exact ⟨hping _ .whole, hread _ _ .carriageReturn, hwrite _ _ _ .unterminated, hpong _ .whole,
    hok _ .unterminated, hvalue _ _ .whole,
    herror _ _ (by decide) (by decide) (by decide) .whole⟩

end HardwareProtocol

end ZeroCpu.Hardware
