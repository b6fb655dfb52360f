import ZeroCpu.Assembler.Printing
import ZeroCpu.Hardware.Protocol

/-!
# What an accepted request says

A request is read field by field. Here it is cut into its fields at once, and the numbers in it are
compared with the integers that they denote.
-/

namespace ZeroCpu.Hardware

open Library Assembler

/-! ## Fields -/

/-- Cut a text at white space, the field in front being `current` so far. -/
def fieldsFrom (current : Str) : Str → List Str
  | [] => if current = [] then [] else [current]
  | ch :: rest =>
      if isSpace ch then if current = [] then fieldsFrom [] rest else current :: fieldsFrom [] rest
      else fieldsFrom (current ++ [ch]) rest

/-- The fields of a text that white space separates. -/
def fields (text : Str) : List Str := fieldsFrom [] text

/-- A text without white space goes into the current field. -/
theorem fieldsFrom_solid {field : Str} (h : Solid field) (current rest : Str) :
    fieldsFrom current (field ++ rest) = fieldsFrom (current ++ field) rest := by
  induction field generalizing current with
  | nil => rw [List.nil_append, List.append_nil]
  | cons ch field ih =>
    have hch : ¬ isSpace ch = true := by simp [h ch List.mem_cons_self]
    rw [List.cons_append, fieldsFrom, if_neg hch, ih fun c hc => h c (List.mem_cons_of_mem _ hc),
      List.append_assoc, List.singleton_append]

/-- White space in front makes no field. -/
theorem fields_blank_append {gap : Str} (h : Blank gap) (text : Str) :
    fields (gap ++ text) = fields text := by
  induction gap with
  | nil => rfl
  | cons ch gap ih =>
    rw [List.cons_append, fields, fieldsFrom, if_pos (h ch List.mem_cons_self), if_pos rfl]
    exact ih fun c hc => h c (List.mem_cons_of_mem _ hc)

/-- The first field ends at the first white space. -/
theorem fields_cons {field rest : Str} (h : Solid field) (hne : field ≠ [])
    (hrest : ∀ ch ∈ rest.head?, isSpace ch = true) : fields (field ++ rest) = field :: fields rest := by
  rw [fields, fieldsFrom_solid h, List.nil_append]
  cases rest with
  | nil => rw [fieldsFrom, if_neg hne]; rfl
  | cons ch rest =>
    have hch : isSpace ch = true := hrest ch rfl
    rw [fieldsFrom, if_pos hch, if_neg hne, fields, fieldsFrom, if_pos hch, if_pos rfl]

/-- White space at the end makes no difference. -/
theorem fieldsFrom_append_blank {gap : Str} (h : Blank gap) (text current : Str) :
    fieldsFrom current (text ++ gap) = fieldsFrom current text := by
  induction text generalizing current with
  | nil =>
    rw [List.nil_append]
    cases gap with
    | nil => rfl
    | cons ch gap =>
      have hrest : fields gap = [] := by
        have := fields_blank_append (fun c hc => h c (List.mem_cons_of_mem _ hc)) []
        rwa [List.append_nil] at this
      simp only [fieldsFrom, h ch List.mem_cons_self, if_true, show fieldsFrom [] gap = [] from hrest]
  | cons ch text ih => simp only [List.cons_append, fieldsFrom, ih]

/-- Line endings are cut off at the end only. -/
theorem exists_trimLineEndings (text : Str) : ∃ endings, Blank endings
    ∧ text = trimLineEndings text ++ endings := by
  refine ⟨(text.reverse.takeWhile fun ch : UInt8 => ch == '\n' || ch == '\r').reverse, ?_, ?_⟩
  · intro ch hch
    have hending := List.mem_takeWhile_imp (List.mem_reverse.mp hch)
    revert hending
    exact forall_byte (p := fun ch => (ch == '\n'.toUInt8 || ch == '\r'.toUInt8) = true →
      isSpace ch = true) (by decide +kernel) ch
  · rw [trimLineEndings, ← List.reverse_append, List.takeWhile_append_dropWhile, List.reverse_reverse]

/-- Line endings do not change the fields. -/
theorem fields_trimLineEndings (text : Str) : fields (trimLineEndings text) = fields text := by
  obtain ⟨endings, hblank, htext⟩ := exists_trimLineEndings text
  conv_rhs => rw [htext]
  exact (fieldsFrom_append_blank hblank _ _).symm

/-- A token, the white space in front of it and the rest behind it. -/
theorem exists_nextToken (stream : Str) : ∃ gap, Blank gap
    ∧ stream = gap ++ ((nextToken stream).1 ++ (nextToken stream).2)
    ∧ Solid (nextToken stream).1
    ∧ (∀ ch ∈ (nextToken stream).2.head?, isSpace ch = true)
    ∧ ((nextToken stream).1 = [] → (nextToken stream).2 = []) := by
  rw [nextToken, List.span_eq_takeWhile_dropWhile]
  have hspaces : ∀ ch ∈ ((stream.dropWhile isSpace).dropWhile fun ch => !isSpace ch).head?,
      isSpace ch = true := by
    intro ch hch
    have := List.head?_dropWhile_not (fun ch => !isSpace ch) (stream.dropWhile isSpace)
    rw [Option.mem_def.mp hch] at this
    simpa using this
  refine ⟨stream.takeWhile isSpace, fun ch hch => List.mem_takeWhile_imp hch, ?_,
    fun ch hch => by simpa using List.mem_takeWhile_imp hch, hspaces, fun hnil => ?_⟩
  · rw [List.takeWhile_append_dropWhile, List.takeWhile_append_dropWhile]
  · -- without a token the rest is all that is left of the stream, and it starts with no space
    have hrest : (stream.dropWhile isSpace).dropWhile (fun ch => !isSpace ch)
        = stream.dropWhile isSpace := by
      conv_rhs => rw [← List.takeWhile_append_dropWhile (p := fun ch => !isSpace ch)
        (l := stream.dropWhile isSpace), show List.takeWhile _ _ = [] from hnil, List.nil_append]
    refine List.head?_eq_none_iff.mp (Option.eq_none_iff_forall_not_mem.mpr fun ch hch => ?_)
    exact Bool.false_ne_true ((head_dropWhile ch (hrest ▸ hch)).symm.trans (hspaces ch hch))

/-- Extracting a token is taking the first field. -/
theorem readToken_cases (stream : Str) :
    (readToken stream = none ∧ fields stream = [])
    ∨ ∃ token rest, readToken stream = some (token, rest) ∧ Solid token ∧ token ≠ []
      ∧ fields stream = token :: fields rest := by
  obtain ⟨gap, hgap, hstream, hsolid, hspaces, hnone⟩ := exists_nextToken stream
  rcases hnext : nextToken stream with ⟨token, rest⟩
  rw [hnext] at hstream hsolid hspaces hnone
  rw [readToken, hnext]
  cases token with
  | nil =>
    obtain rfl : rest = [] := hnone rfl
    refine .inl ⟨rfl, ?_⟩
    rw [hstream, fields_blank_append hgap]
    rfl
  | cons first others =>
    refine .inr ⟨_, rest, rfl, hsolid, List.cons_ne_nil _ _, ?_⟩
    rw [hstream, fields_blank_append hgap, fields_cons hsolid (List.cons_ne_nil _ _) hspaces]

/-- Every field is free of white space and not empty. -/
theorem fieldsFrom_solid_of_mem (text : Str) : ∀ current, Solid current →
    ∀ field ∈ fieldsFrom current text, Solid field ∧ field ≠ [] := by
  induction text with
  | nil =>
    intro current hcurrent field hfield
    rw [fieldsFrom] at hfield
    split at hfield
    · exact absurd hfield List.not_mem_nil
    · next hne => exact (List.mem_singleton.mp hfield) ▸ ⟨hcurrent, hne⟩
  | cons ch rest ih =>
    intro current hcurrent field hfield
    rw [fieldsFrom] at hfield
    split at hfield
    · split at hfield
      · exact ih [] nofun field hfield
      · next hne =>
        rcases List.mem_cons.mp hfield with rfl | hfield
        · exact ⟨hcurrent, hne⟩
        · exact ih [] nofun field hfield
    · next hch =>
      refine ih (current ++ [ch]) (fun c hc => ?_) field hfield
      rcases List.mem_append.mp hc with hc | hc
      · exact hcurrent c hc
      · obtain rfl := List.mem_singleton.mp hc
        exact Bool.eq_false_of_not_eq_true hch

theorem solid_of_mem_fields {text field : Str} (h : field ∈ fields text) : Solid field ∧ field ≠ [] :=
  fieldsFrom_solid_of_mem text [] nofun field h

/-! ## Requests by their fields -/

namespace HardwareProtocol

/-- The request that the fields of a line make. -/
def requestOf : List Str → Except Str HardwareProtocolRequest
  | version :: command :: arguments => do
      requireVersion version
      if command = "PING" then
        reject (arguments ≠ []) "Hardware protocol message has extra fields"
        pure { type := .Ping }
      else if command = "READ" then
        match arguments with
        | [] => .error "READ request requires an offset"
        | offsetText :: extra => do
            reject (extra ≠ []) "Hardware protocol message has extra fields"
            let offset ← parseOffset offsetText
            pure { type := .Read, offset := offset }
      else if command = "WRITE" then
        match arguments with
        | offsetText :: valueText :: extra => do
            reject (extra ≠ []) "Hardware protocol message has extra fields"
            let offset ← parseOffset offsetText
            let value ← parseValue valueText
            pure { type := .Write, offset := offset, value := value }
        | _ => .error "WRITE request requires offset and value"
      else .error ("Unknown hardware protocol request: " ++ command : Str)
  | _ => .error "Malformed hardware protocol request"

/-- The check for extra fields, over the fields of the text. -/
theorem requireNoExtraToken_eq (stream : Str) : requireNoExtraToken stream
    = reject (fields stream ≠ []) ("Hardware protocol message has extra fields" : Str) := by
  rw [requireNoExtraToken]
  rcases readToken_cases stream with ⟨hread, hfields⟩ | ⟨token, rest, hread, -, -, hfields⟩
  · rw [hread, hfields]
    rfl
  · rw [hread, hfields, reject_of_pos Option.isSome_some, reject_of_pos (List.cons_ne_nil _ _)]

/-- A token is the first field, or there is none. -/
theorem requireToken_cases (stream message : Str) :
    (requireToken stream message = .error message ∧ fields stream = [])
    ∨ ∃ token rest, requireToken stream message = .ok (token, rest)
      ∧ fields stream = token :: fields rest := by
  rw [requireToken]
  rcases readToken_cases stream with ⟨hread, hfields⟩ | ⟨token, rest, hread, -, -, hfields⟩
  · exact .inl ⟨by rw [hread], hfields⟩
  · exact .inr ⟨token, rest, by rw [hread], hfields⟩

/-- The request depends on the fields of the text only. -/
theorem parseRequest_eq (text : Str) : parseRequest text = requestOf (fields text) := by
  rw [← fields_trimLineEndings, parseRequest]
  -- The stream gives the fields of the line one by one.
  rcases requireToken_cases (trimLineEndings text) "Malformed hardware protocol request" with
    ⟨hversion, hfields⟩ | ⟨version, stream, hversion, hfields⟩
  · simp only [hversion, hfields]
    rfl
  rcases requireToken_cases stream "Malformed hardware protocol request" with
    ⟨hcommand, hrest⟩ | ⟨command, arguments, hcommand, hrest⟩
  · simp only [hversion, hcommand, hfields, hrest, ok_bind]
    rfl
  simp only [hversion, hcommand, hfields, hrest, ok_bind, requestOf, requireNoExtraToken_eq]
  congr 1
  funext _
  split_ifs
  · rfl
  · rcases requireToken_cases arguments "READ request requires an offset" with
      ⟨hoffset, hnone⟩ | ⟨offset, extra, hoffset, hsome⟩
    · simp only [hoffset, hnone]
      rfl
    · simp only [hoffset, hsome, ok_bind]
  · rcases requireToken_cases arguments "WRITE request requires offset and value" with
      ⟨hoffset, hnone⟩ | ⟨offset, stream, hoffset, hsome⟩
    · simp only [hoffset, hnone]
      rfl
    rcases requireToken_cases stream "WRITE request requires offset and value" with
      ⟨hvalue, hnone⟩ | ⟨value, extra, hvalue, hboth⟩
    · simp only [hoffset, hsome, hvalue, hnone, ok_bind]
      rfl
    · simp only [hoffset, hsome, hvalue, hboth, ok_bind]
  · rfl

end HardwareProtocol

/-! ## Decimal numerals -/

/-- A decimal numeral: digits behind an optional sign. -/
structure DecimalNumeral where
  sign : Sign
  digits : List (Digit 10)
  nonempty : digits ≠ []

namespace DecimalNumeral

/-- The number without its sign. -/
def magnitude (numeral : DecimalNumeral) : ℕ := magnitudeOf numeral.digits

/-- The sign as it is written. -/
def signText : Sign → Str
  | .none => []
  | .plus => "+"
  | .minus => "-"

/-- The numeral as it is written. -/
def text (numeral : DecimalNumeral) : Str :=
  signText numeral.sign ++ numeral.digits.map Digit.char

/-- The number with its sign. -/
def value (numeral : DecimalNumeral) : ℤ :=
  match numeral.sign with
  | .minus => -(numeral.magnitude : ℤ)
  | _ => numeral.magnitude

end DecimalNumeral

theorem isDigit_char (digit : Digit 10) : isDigit digit.char = true := by
  have hall : ∀ value < 10, ∀ upper, isDigit (digitChar value upper) = true := by decide
  exact hall _ digit.value_lt _

/-- A digit character is the character of a digit. -/
theorem exists_digit {ch : UInt8} (h : isDigit ch = true) : ∃ digit : Digit 10, digit.char = ch := by
  have hall : ∀ ch : UInt8, isDigit ch = true →
      ch.toNat - 48 < 10 ∧ digitChar (ch.toNat - 48) false = ch :=
    forall_byte (by decide +kernel)
  obtain ⟨hlt, hchar⟩ := hall ch h
  exact ⟨⟨ch.toNat - 48, hlt, false⟩, hchar⟩

/-- A text of digit characters spells digits. -/
theorem exists_digits_of_isDigit {text : Str} (h : ∀ ch ∈ text, isDigit ch = true) :
    ∃ digits : List (Digit 10), digits.map Digit.char = text := by
  induction text with
  | nil => exact ⟨[], rfl⟩
  | cons ch text ih =>
    obtain ⟨digit, rfl⟩ := exists_digit (h ch List.mem_cons_self)
    obtain ⟨digits, rfl⟩ := ih fun c hc => h c (List.mem_cons_of_mem _ hc)
    exact ⟨digit :: digits, rfl⟩

/-- Digits are spelled by digit characters. -/
theorem isDigit_of_mem_digits {digits : List (Digit 10)} :
    ∀ ch ∈ digits.map Digit.char, isDigit ch = true := by
  intro ch hch
  obtain ⟨digit, -, rfl⟩ := List.mem_map.mp hch
  exact isDigit_char digit

theorem isSpace_of_isDigit {ch : UInt8} (h : isDigit ch = true) : isSpace ch = false := by
  revert h
  exact forall_byte (p := fun ch => isDigit ch = true → isSpace ch = false) (by decide +kernel) ch

/-- A numeral has no white space. -/
theorem DecimalNumeral.solid_text (numeral : DecimalNumeral) : Solid numeral.text := by
  intro ch hch
  rcases List.mem_append.mp hch with hch | hch
  · have hsign : ∀ sign, Solid (signText sign) := by
      intro sign
      unfold Solid
      cases sign <;> decide
    exact hsign _ ch hch
  · exact isSpace_of_isDigit (isDigit_of_mem_digits ch hch)

theorem DecimalNumeral.text_ne_nil (numeral : DecimalNumeral) : numeral.text ≠ [] := fun h =>
  numeral.nonempty (List.map_eq_nil_iff.mp (List.append_eq_nil_iff.mp h).2)

/-- The sign of a numeral is scanned. -/
theorem scanSign_text (sign : Sign) {digits : List (Digit 10)} (hne : digits ≠ []) :
    scanSign (DecimalNumeral.signText sign ++ digits.map Digit.char)
      = (decide (sign = .minus), digits.map Digit.char) := by
  obtain ⟨first, rest, rfl⟩ := List.exists_cons_of_ne_nil hne
  have hfirst : ∀ ch : UInt8, isDigit ch = false → ¬ first.char = ch := fun ch hch h =>
    Bool.false_ne_true (hch.symm.trans (h ▸ isDigit_char first))
  cases sign with
  | none =>
    rw [DecimalNumeral.signText, List.nil_append, List.map_cons, scanSign,
      if_neg (hfirst _ (by decide)), if_neg (hfirst _ (by decide))]
    rfl
  | plus => rfl
  | minus => rfl

/-- What is scanned in front of a text is a sign. -/
theorem exists_of_scanSign (text : Str) : ∃ sign, text = DecimalNumeral.signText sign ++ (scanSign text).2
    ∧ (scanSign text).1 = decide (sign = .minus) := by
  cases text with
  | nil => exact ⟨.none, rfl, rfl⟩
  | cons ch rest =>
    rw [scanSign]
    split_ifs with hminus hplus
    · exact ⟨.minus, by rw [hminus]; rfl, rfl⟩
    · exact ⟨.plus, by rw [hplus]; rfl, rfl⟩
    · exact ⟨.none, rfl, rfl⟩

/-- The conversions read a numeral to its end. -/
theorem scanNumber_text (numeral : DecimalNumeral) :
    scanNumber numeral.text = some (decide (numeral.sign = .minus), numeral.magnitude, []) := by
  rw [scanNumber, dropWhile_of_head numeral.solid_text.trimmed.head, DecimalNumeral.text,
    scanSign_text _ numeral.nonempty]
  simp only [List.span_eq_takeWhile_dropWhile, List.takeWhile_eq_self_iff.mpr isDigit_of_mem_digits,
    List.dropWhile_eq_nil_iff.mpr isDigit_of_mem_digits,
    @parseDigits_chars 10 (by decide) _ numeral.nonempty]
  rfl

/-- What a conversion reads to its end is a numeral. -/
theorem exists_of_scanNumber {text : Str} (h : Solid text) {negative : Bool} {magnitude : ℕ}
    (hscan : scanNumber text = some (negative, magnitude, [])) :
    ∃ numeral : DecimalNumeral, numeral.text = text ∧ numeral.magnitude = magnitude
      ∧ negative = decide (numeral.sign = .minus) := by
  obtain ⟨sign, htext, hsign⟩ := exists_of_scanSign text
  rw [scanNumber, dropWhile_of_head h.trimmed.head] at hscan
  rcases hsplit : scanSign text with ⟨minus, unsigned⟩
  rw [hsplit] at htext hsign hscan
  simp only [List.span_eq_takeWhile_dropWhile, Option.map_eq_some_iff] at hscan
  obtain ⟨value, hvalue, heq⟩ := hscan
  obtain ⟨rfl, rfl, hrest⟩ : minus = negative ∧ value = magnitude ∧ unsigned.dropWhile isDigit = [] := by
    simpa using heq
  have hall := List.dropWhile_eq_nil_iff.mp hrest
  obtain ⟨digits, rfl⟩ := exists_digits_of_isDigit hall
  rw [List.takeWhile_eq_self_iff.mpr hall] at hvalue
  have hne : digits ≠ [] := by
    rintro rfl
    cases hvalue
  rw [parseDigits_chars (by decide) hne] at hvalue
  exact ⟨⟨sign, digits, hne⟩, htext.symm, Option.some.inj hvalue, hsign⟩

/-- The integer that a decimal numeral denotes. -/
def Denotes (text : Str) (n : ℤ) : Prop :=
  ∃ numeral : DecimalNumeral, numeral.text = text ∧ numeral.value = n

/-- The value of a numeral is its magnitude with its sign. -/
theorem DecimalNumeral.value_eq (numeral : DecimalNumeral) :
    numeral.value = signed (decide (numeral.sign = .minus)) numeral.magnitude := by
  unfold DecimalNumeral.value
  cases numeral.sign <;> rfl

/-- A text denotes one integer at most. -/
theorem Denotes.unique {text : Str} {n n' : ℤ} (h : Denotes text n) (h' : Denotes text n') : n = n' := by
  obtain ⟨numeral, htext, rfl⟩ := h
  obtain ⟨numeral', rfl, rfl⟩ := h'
  have hscan := (congrArg scanNumber htext).symm.trans (scanNumber_text numeral)
  rw [scanNumber_text, Option.some.injEq, Prod.mk.injEq, Prod.mk.injEq] at hscan
  rw [numeral.value_eq, numeral'.value_eq, hscan.1, hscan.2.1]

/-- A number that takes up the whole text. -/
theorem scanNumber_all {text : Str} (h : Solid text ∧ text ≠ []) {negative : Bool} {magnitude : ℕ}
    {rest : Str} (hscan : scanNumber text = some (negative, magnitude, rest))
    (hparsed : ¬ text.length - rest.length ≠ text.length) :
    ∃ numeral : DecimalNumeral, numeral.text = text ∧ numeral.magnitude = magnitude
      ∧ negative = decide (numeral.sign = .minus) := by
  have hpos := List.length_pos_iff.mpr h.2
  obtain rfl : rest = [] := by
    rw [← List.length_eq_zero_iff]
    omega
  exact exists_of_scanNumber h.1 hscan

/-- The offsets that are accepted: numerals with a magnitude in range, whatever their sign. -/
theorem parseOffset_eq_ok {text : Str} (h : Solid text ∧ text ≠ []) {offset : Word} :
    parseOffset text = .ok offset ↔ ∃ numeral : DecimalNumeral, numeral.text = text
      ∧ numeral.magnitude < 2 ^ 64 ∧ offset = BitVec.ofInt 64 numeral.value := by
  -- `std::stoull` negates in 64 bits, as `BitVec.ofInt` does.
  have hvalue : ∀ (negative : Bool) (magnitude : ℕ),
      (if negative then -BitVec.ofNat 64 magnitude else BitVec.ofNat 64 magnitude)
        = BitVec.ofInt 64 (signed negative magnitude) := by
    intro negative magnitude
    cases negative with
    | true => rw [if_pos rfl, signed, if_pos rfl, BitVec.ofInt_neg, BitVec.ofInt_natCast]
    | false => exact (BitVec.ofInt_natCast 64 magnitude).symm
  constructor
  · intro hparse
    obtain ⟨⟨value, parsed⟩, hread, hparse⟩ := bind_eq_ok.mp hparse
    obtain ⟨⟨⟩, hparsed, hparse⟩ := bind_eq_ok.mp hparse
    obtain rfl := Except.ok.inj hparse
    rw [stoull] at hread
    split at hread
    · cases hread
    · next negative magnitude rest hscan =>
      by_cases hrange : magnitude < 2 ^ 64
      · rw [if_pos hrange] at hread
        obtain ⟨rfl, rfl⟩ := Prod.mk.inj (Except.ok.inj hread)
        obtain ⟨numeral, htext, rfl, rfl⟩ := scanNumber_all h hscan (reject_eq_ok.mp hparsed)
        exact ⟨numeral, htext, hrange, by rw [hvalue, numeral.value_eq]⟩
      · rw [if_neg hrange] at hread
        cases hread
  · rintro ⟨numeral, rfl, hrange, rfl⟩
    rw [parseOffset, stoull, scanNumber_text, numeral.value_eq, ← hvalue]
    simp only [if_pos hrange, ok_bind]
    rw [reject_of_not fun hne => hne (Nat.sub_zero _)]
    rfl

/-- A value is parsed exactly from a numeral that fits into 64 bits. -/
theorem parseValue_eq_ok {text : Str} (h : Solid text ∧ text ≠ []) {value : Word} :
    parseValue text = .ok value ↔ ∃ numeral : DecimalNumeral, numeral.text = text
      ∧ (-2 ^ 63 ≤ numeral.value ∧ numeral.value < 2 ^ 63)
      ∧ value = BitVec.ofInt 64 numeral.value := by
  constructor
  · intro hparse
    obtain ⟨⟨value, parsed⟩, hread, hparse⟩ := bind_eq_ok.mp hparse
    obtain ⟨⟨⟩, hparsed, hparse⟩ := bind_eq_ok.mp hparse
    obtain rfl := Except.ok.inj hparse
    rw [stoll] at hread
    split at hread
    · cases hread
    · next negative magnitude rest hscan =>
      by_cases hrange : -2 ^ 63 ≤ signed negative magnitude ∧ signed negative magnitude < 2 ^ 63
      · rw [if_pos hrange] at hread
        obtain ⟨rfl, rfl⟩ := Prod.mk.inj (Except.ok.inj hread)
        obtain ⟨numeral, htext, rfl, rfl⟩ := scanNumber_all h hscan (reject_eq_ok.mp hparsed)
        rw [← numeral.value_eq] at hrange ⊢
        exact ⟨numeral, htext, hrange, rfl⟩
      · rw [if_neg hrange] at hread
        cases hread
  · rintro ⟨numeral, rfl, hrange, rfl⟩
    rw [parseValue, stoll, scanNumber_text]
    simp only [← numeral.value_eq, if_pos hrange, ok_bind]
    rw [reject_of_not fun hne => hne (Nat.sub_zero _)]
    rfl

/-! ## Accepted requests -/

namespace HardwareProtocol

/-- The lines that are requests, and the requests that they are. -/
theorem requestOf_eq_ok {line : List Str} {request : HardwareProtocolRequest} :
    requestOf line = .ok request ↔
      (line = [kVersion, "PING"] ∧ request = { type := .Ping })
      ∨ (∃ offsetText offset, line = [kVersion, "READ", offsetText]
        ∧ parseOffset offsetText = .ok offset ∧ request = { type := .Read, offset := offset })
      ∨ ∃ offsetText valueText offset value, line = [kVersion, "WRITE", offsetText, valueText]
        ∧ parseOffset offsetText = .ok offset ∧ parseValue valueText = .ok value
        ∧ request = { type := .Write, offset := offset, value := value } := by
  constructor
  · intro h
    rcases line with _ | ⟨version, _ | ⟨command, arguments⟩⟩
    · cases h
    · cases h
    obtain ⟨⟨⟩, hversion, hbody⟩ := bind_eq_ok.mp h
    obtain rfl : version = kVersion := not_not.mp (reject_eq_ok.mp hversion)
    by_cases hping : command = "PING"
    · rw [if_pos hping] at hbody
      obtain ⟨⟨⟩, hextra, hpure⟩ := bind_eq_ok.mp hbody
      obtain rfl := not_not.mp (reject_eq_ok.mp hextra)
      exact .inl ⟨by rw [hping], (Except.ok.inj hpure).symm⟩
    rw [if_neg hping] at hbody
    by_cases hread : command = "READ"
    · rw [if_pos hread] at hbody
      rcases arguments with _ | ⟨offsetText, extra⟩
      · cases hbody
      obtain ⟨⟨⟩, hextra, hrest⟩ := bind_eq_ok.mp hbody
      obtain rfl := not_not.mp (reject_eq_ok.mp hextra)
      obtain ⟨offset, hoffset, hpure⟩ := bind_eq_ok.mp hrest
      exact .inr (.inl ⟨offsetText, offset, by rw [hread], hoffset, (Except.ok.inj hpure).symm⟩)
    rw [if_neg hread] at hbody
    by_cases hwrite : command = "WRITE"
    · rw [if_pos hwrite] at hbody
      rcases arguments with _ | ⟨offsetText, _ | ⟨valueText, extra⟩⟩
      · cases hbody
      · cases hbody
      obtain ⟨⟨⟩, hextra, hrest⟩ := bind_eq_ok.mp hbody
      obtain rfl := not_not.mp (reject_eq_ok.mp hextra)
      obtain ⟨offset, hoffset, hrest⟩ := bind_eq_ok.mp hrest
      obtain ⟨value, hvalue, hpure⟩ := bind_eq_ok.mp hrest
      exact .inr (.inr ⟨offsetText, valueText, offset, value, by rw [hwrite], hoffset, hvalue,
        (Except.ok.inj hpure).symm⟩)
    rw [if_neg hwrite] at hbody
    cases hbody
  · rintro (⟨rfl, rfl⟩ | ⟨offsetText, offset, rfl, hoffset, rfl⟩
      | ⟨offsetText, valueText, offset, value, rfl, hoffset, hvalue, rfl⟩)
    · rfl
    · show (parseOffset offsetText >>= _) = _
      rw [hoffset]
      rfl
    · show (parseOffset offsetText >>= _) = _
      rw [hoffset, ok_bind, hvalue]
      rfl

/-- What an accepted text means is what it says, and what says a number out of range is rejected. -/
structure Faithful (text : Str) : Prop where
  read : ∀ request, parseRequest text = .ok request → request.type = .Read →
    ∃ offsetText, fields text = [kVersion, "READ", offsetText]
      ∧ Denotes offsetText request.offset.toNat
  write : ∀ request, parseRequest text = .ok request → request.type = .Write →
    ∃ offsetText valueText, fields text = [kVersion, "WRITE", offsetText, valueText]
      ∧ Denotes offsetText request.offset.toNat ∧ Denotes valueText request.value.toInt
  offsets : ∀ version command offsetText rest n,
    fields text = version :: command :: offsetText :: rest →
    command = Str.ofString "READ" ∨ command = Str.ofString "WRITE" →
    Denotes offsetText n → n < 0 ∨ 2 ^ 64 ≤ n → ∃ e, parseRequest text = .error e
  values : ∀ version offsetText valueText rest n,
    fields text = version :: Str.ofString "WRITE" :: offsetText :: valueText :: rest →
    Denotes valueText n → n < -2 ^ 63 ∨ 2 ^ 63 ≤ n → ∃ e, parseRequest text = .error e

/-- A request line whose offset is a minus sign and a magnitude other than zero that fits 64 bits,
and which is in order otherwise. -/
def NegativeOffset (text : Str) : Prop :=
  ∃ offset : DecimalNumeral, offset.value < 0 ∧ offset.magnitude < 2 ^ 64
    ∧ (fields text = [kVersion, "READ", offset.text]
      ∨ ∃ valueText n, fields text = [kVersion, "WRITE", offset.text, valueText]
        ∧ Denotes valueText n ∧ -2 ^ 63 ≤ n ∧ n < 2 ^ 63)

/-- A number that is not negative, as an unsigned word. -/
theorem toNat_ofInt {numeral : DecimalNumeral} (hpos : 0 ≤ numeral.value)
    (hlt : numeral.magnitude < 2 ^ 64) :
    ((BitVec.ofInt 64 numeral.value).toNat : ℤ) = numeral.value := by
  have hvalue : numeral.value = numeral.magnitude := by
    rw [numeral.value_eq, signed] at hpos ⊢
    split_ifs at hpos ⊢ <;> omega
  rw [hvalue, BitVec.ofInt_natCast, BitVec.toNat_ofNat, Nat.mod_eq_of_lt hlt]

theorem toInt_ofInt {n : ℤ} (h : -2 ^ 63 ≤ n ∧ n < 2 ^ 63) : (BitVec.ofInt 64 n).toInt = n :=
  BitVec.toInt_ofInt_eq_self (by decide) h.1 h.2

/-- A request that was accepted has a numeral for an offset; the request stands for it unless the
line has a negative offset. -/
theorem denotes_offset {offsetText : Str} {offset : Word} (hfield : Solid offsetText ∧ offsetText ≠ [])
    (hparse : parseOffset offsetText = .ok offset) :
    ∃ numeral : DecimalNumeral, numeral.text = offsetText ∧ numeral.magnitude < 2 ^ 64
      ∧ (¬ numeral.value < 0 → Denotes offsetText offset.toNat) := by
  obtain ⟨numeral, rfl, hlt, rfl⟩ := (parseOffset_eq_ok hfield).mp hparse
  exact ⟨numeral, rfl, hlt, fun hneg => ⟨numeral, rfl, (toNat_ofInt (not_lt.mp hneg) hlt).symm⟩⟩

/-- A parsed value is the one that its text denotes. -/
theorem denotes_value {valueText : Str} {value : Word} (hfield : Solid valueText ∧ valueText ≠ [])
    (hparse : parseValue valueText = .ok value) :
    Denotes valueText value.toInt ∧ -2 ^ 63 ≤ value.toInt ∧ value.toInt < 2 ^ 63 := by
  obtain ⟨numeral, rfl, hrange, rfl⟩ := (parseValue_eq_ok hfield).mp hparse
  rw [toInt_ofInt hrange]
  exact ⟨⟨numeral, rfl, rfl⟩, hrange⟩

/-- What a line with a negative offset is accepted as. -/
theorem NegativeOffset.accepted {text : Str} (h : NegativeOffset text) :
    ∃ request, parseRequest text = .ok request := by
  obtain ⟨offset, -, hlt, hline⟩ := h
  have hoffset : parseOffset offset.text = .ok (BitVec.ofInt 64 offset.value) :=
    (parseOffset_eq_ok ⟨offset.solid_text, offset.text_ne_nil⟩).mpr ⟨offset, rfl, hlt, rfl⟩
  rw [parseRequest_eq]
  rcases hline with hline | ⟨valueText, n, hline, ⟨value, rfl, rfl⟩, hrange⟩
  · exact ⟨_, requestOf_eq_ok.mpr (.inr (.inl ⟨_, _, hline, hoffset, rfl⟩))⟩
  · have hvalue : parseValue value.text = .ok (BitVec.ofInt 64 value.value) :=
      (parseValue_eq_ok ⟨value.solid_text, value.text_ne_nil⟩).mpr ⟨value, rfl, hrange, rfl⟩
    exact ⟨_, requestOf_eq_ok.mpr (.inr (.inr ⟨_, _, _, _, hline, hoffset, hvalue, rfl⟩))⟩

/-- A negative offset is not read as what it denotes. -/
theorem NegativeOffset.not_faithful {text : Str} (h : NegativeOffset text) : ¬ Faithful text := by
  intro hfaithful
  obtain ⟨request, haccepted⟩ := h.accepted
  obtain ⟨offset, hneg, -, hline⟩ := h
  have hrejected : ∃ e, parseRequest text = .error e := by
    rcases hline with hline | ⟨valueText, n, hline, -⟩
    · exact hfaithful.offsets _ _ _ _ _ hline (.inl rfl) ⟨offset, rfl, rfl⟩ (.inl hneg)
    · exact hfaithful.offsets _ _ _ _ _ hline (.inr rfl) ⟨offset, rfl, rfl⟩ (.inl hneg)
  obtain ⟨e, herror⟩ := hrejected
  cases haccepted.symm.trans herror

/-- What stands in an accepted line, field by field. -/
inductive Accepted (text : Str) : HardwareProtocolRequest → Prop
  | ping (hline : fields text = [kVersion, "PING"]) : Accepted text { type := .Ping }
  | read (offsetText : Str) (offset : Word) (hline : fields text = [kVersion, "READ", offsetText])
      (hdenotes : Denotes offsetText offset.toNat) :
      Accepted text { type := .Read, offset := offset }
  | write (offsetText valueText : Str) (offset value : Word)
      (hline : fields text = [kVersion, "WRITE", offsetText, valueText])
      (hoffset : Denotes offsetText offset.toNat) (hvalue : Denotes valueText value.toInt) :
      Accepted text { type := .Write, offset := offset, value := value }

/-- Without a negative offset, a parsed request is an accepted one. -/
theorem accepted_of_parseRequest {text : Str} {request : HardwareProtocolRequest}
    (h : ¬ NegativeOffset text) (hparse : parseRequest text = .ok request) : Accepted text request := by
  have hfield : ∀ {field : Str} {line : List Str}, fields text = line → field ∈ line →
      Solid field ∧ field ≠ [] := fun hline hmem => solid_of_mem_fields (hline ▸ hmem)
  rw [parseRequest_eq] at hparse
  rcases requestOf_eq_ok.mp hparse with ⟨hline, rfl⟩ | ⟨offsetText, offset, hline, hoffset, rfl⟩
    | ⟨offsetText, valueText, offset, value, hline, hoffset, hvalue, rfl⟩
  · exact .ping hline
  · obtain ⟨numeral, rfl, hlt, hdenotes⟩ := denotes_offset (hfield hline (by simp)) hoffset
    exact .read _ _ hline (hdenotes fun hneg => h ⟨numeral, hneg, hlt, .inl hline⟩)
  · obtain ⟨numeral, rfl, hlt, hdenotes⟩ := denotes_offset (hfield hline (by simp)) hoffset
    obtain ⟨hmeans, hrange⟩ := denotes_value (hfield hline (by simp)) hvalue
    exact .write _ _ _ _ hline
      (hdenotes fun hneg => h ⟨numeral, hneg, hlt, .inr ⟨valueText, _, hline, hmeans, hrange⟩⟩) hmeans

/-- Accepted requests mean what they say, unless their offset is negative. -/
theorem faithful_iff (text : Str) : Faithful text ↔ ¬ NegativeOffset text := by
  constructor
  · exact fun hfaithful hneg => hneg.not_faithful hfaithful
  · intro h
    -- Without a negative offset every accepted request is one the grammar accepts, and the four
    -- parts are read off the grammar.
    have haccepted : ∀ request, parseRequest text = .ok request → Accepted text request :=
      fun _ hparse => accepted_of_parseRequest h hparse
    refine ⟨fun request hparse htype => ?_, fun request hparse htype => ?_,
      fun version command offsetText rest n hline hcommand hdenotes hrange => ?_,
      fun version offsetText valueText rest n hline hdenotes hrange => ?_⟩
    · cases haccepted request hparse with
      | ping hline => cases htype
      | read offsetText offset hline hdenotes => exact ⟨offsetText, hline, hdenotes⟩
      | write offsetText valueText offset value hline hoffset hvalue => cases htype
    · cases haccepted request hparse with
      | ping hline => cases htype
      | read offsetText offset hline hdenotes => cases htype
      | write offsetText valueText offset value hline hoffset hvalue =>
        exact ⟨offsetText, valueText, hline, hoffset, hvalue⟩
    · rcases hparse : parseRequest text with e | request
      · exact ⟨e, rfl⟩
      exfalso
      cases haccepted request hparse with
      | ping hline' => cases hline.symm.trans hline'
      | read offsetText' offset hline' hdenotes' =>
        cases hline.symm.trans hline'
        obtain rfl := hdenotes.unique hdenotes'
        omega
      | write offsetText' valueText offset value hline' hoffset hvalue =>
        cases hline.symm.trans hline'
        obtain rfl := hdenotes.unique hoffset
        omega
    · rcases hparse : parseRequest text with e | request
      · exact ⟨e, rfl⟩
      exfalso
      cases haccepted request hparse with
      | ping hline' => cases hline.symm.trans hline'
      | read offsetText' offset hline' hdenotes' => cases hline.symm.trans hline'
      | write offsetText' valueText' offset value hline' hoffset hvalue =>
        cases hline.symm.trans hline'
        obtain rfl := hdenotes.unique hvalue
        have := BitVec.le_toInt value
        have := BitVec.toInt_lt (x := value)
        omega

/-- The register that a negative offset addresses is the last one of the address space. -/
theorem negative_offset_wraps :
    parseRequest "ZEROCPU/1 READ -1\n" = .ok { type := .Read, offset := BitVec.allOnes 64 }
    ∧ ¬ Faithful "ZEROCPU/1 READ -1\n" := by
  refine ⟨by decide +kernel, NegativeOffset.not_faithful ?_⟩
  refine ⟨⟨.minus, [⟨1, by decide, false⟩], List.cons_ne_nil _ _⟩, by decide, by decide, .inl ?_⟩
  decide +kernel

end HardwareProtocol

end ZeroCpu.Hardware
