import ZeroCpu.Assembler.Printing
import ZeroCpu.Trace.Json

/-!
# Printed documents

Reference: `src/trace/TraceJsonWriter.cpp`, `src/system/MultiProcessTraceJsonWriter.cpp`,
`src/trace/TraceJsonDiff.cpp`.

The functions with which both trace writers print fields, and what is printed with them: a
`Document` has the fields of its objects in the order in which the text has them. The text of a
document is parsed to its value (`parse_text`) when its numbers have 64 bits and no object has a key
twice. Lines that are indented again are the text of the same document.
-/

namespace ZeroCpu.Json

open Library Assembler

/-! ## Fields -/

/-- Spaces. -/
def indent (spaces : ℕ) : Str := List.replicate spaces ' '

/-- A byte in hexadecimal, four characters wide. -/
def hexCode (ch : UInt8) : Str := List.leftpad 4 '0' ((Nat.toDigits 16 ch.toNat).map Char.toUInt8)

/-- A character as it stands in a JSON string. -/
def escapeChar (ch : UInt8) : Str :=
  if ch = '"' then "\\\""
  else if ch = '\\' then "\\\\"
  else if ch = 8 then "\\b"
  else if ch = 12 then "\\f"
  else if ch = '\n' then "\\n"
  else if ch = '\r' then "\\r"
  else if ch = '\t' then "\\t"
  else if ch < 0x20 then "\\u" ++ hexCode ch
  else [ch]

/-- A text as it stands in a JSON string. -/
def escapeJson (text : Str) : Str := text.flatMap escapeChar

/-- The end of a line, with a comma unless it is the last. -/
def finishField (comma : Bool) : Str := if comma then [',', '\n'] else ['\n']

/-- A line with a name and a value. -/
def fieldText (fieldIndent : ℕ) (name value : Str) (comma : Bool) : Str :=
  indent fieldIndent ++ ("\"" ++ (escapeJson name ++ ("\": " ++ (value ++ finishField comma))))

/-- A line with a text. -/
def stringField (fieldIndent : ℕ) (name value : Str) (comma : Bool) : Str :=
  fieldText fieldIndent name ("\"" ++ (escapeJson value ++ "\"")) comma

/-- A line with a size. -/
def sizeField (fieldIndent : ℕ) (name : Str) (value : ℕ) (comma : Bool) : Str :=
  fieldText fieldIndent name (toStr value) comma

/-- A line with a signed word. -/
def int64Field (fieldIndent : ℕ) (name : Str) (value : Word) (comma : Bool) : Str :=
  fieldText fieldIndent name (intToStr value.toInt) comma

/-- A line with a Boolean. -/
def boolField (fieldIndent : ℕ) (name : Str) (value comma : Bool) : Str :=
  fieldText fieldIndent name (if value then "true" else "false") comma

/-! ## Documents -/

/-- What the writer can write. -/
inductive Document where
  | boolean (value : Bool)
  | number (value : ℤ)
  | string (value : Str)
  | array (elements : List Document)
  | object (fields : List (Str × Document))

namespace Document

mutual

/-- A document as it is printed behind `margin` spaces. -/
def text (margin : ℕ) : Document → Str
  | .boolean value => if value then "true" else "false"
  | .number value => intToStr value
  | .string value => "\"" ++ (escapeJson value ++ "\"")
  | .array elements => "[\n" ++ (elementsText (margin + 2) elements ++ (indent margin ++ "]"))
  | .object fields => "\x7b\n" ++ (fieldsText (margin + 2) fields ++ (indent margin ++ "\x7d"))

/-- The lines of the elements of an array. -/
def elementsText (margin : ℕ) : List Document → Str
  | [] => []
  | element :: rest =>
      indent margin ++ (element.text margin ++ (finishField (!rest.isEmpty) ++ elementsText margin rest))

/-- The lines of the members of an object. -/
def fieldsText (margin : ℕ) : List (Str × Document) → Str
  | [] => []
  | (name, value) :: rest =>
      fieldText margin name (value.text margin) (!rest.isEmpty) ++ fieldsText margin rest

end

mutual

/-- The JSON value of a document. -/
def value : Document → JsonValue
  | .boolean value => .boolean value
  | .number value => .number value
  | .string value => .string value
  | .array elements => .array (valuesOf elements)
  | .object fields => .object (membersOf [] fields)

/-- The values of the elements of an array. -/
def valuesOf : List Document → List JsonValue
  | [] => []
  | element :: rest => element.value :: valuesOf rest

/-- The fields go into the map one after the other. -/
def membersOf (members : Members) : List (Str × Document) → Members
  | [] => members
  | (name, value) :: rest => membersOf (members.emplace name value.value) rest

end

/-- The numbers have 64 bits and the keys of an object differ. -/
inductive Readable : Document → Prop
  | boolean (value : Bool) : Readable (.boolean value)
  | number {value : ℤ} (hmin : int64Min ≤ value) (hmax : value ≤ int64Max) :
      Readable (.number value)
  | string (value : Str) : Readable (.string value)
  | array {elements : List Document} (h : ∀ element ∈ elements, Readable element) :
      Readable (.array elements)
  | object {fields : List (Str × Document)} (keys : (fields.map Prod.fst).Nodup)
      (h : ∀ field ∈ fields, Readable field.2) : Readable (.object fields)

end Document

/-! ## Reading -/

section Reads

variable {α β : Type}

/-- From `text` on, `m` returns `a` and leaves `rest`. -/
def Reads (m : Parser α) (text : Str) (a : α) (rest : Str) : Prop :=
  ∀ position, ∃ position', m ⟨position, text⟩ = (.ok a, ⟨position', rest⟩)

namespace Reads

variable {text rest : Str} {a : α}

/-- One parser reads on where the other has stopped. -/
theorem bind {m : Parser α} {f : α → Parser β} {b : β} {rest' : Str} (hm : Reads m text a rest)
    (hf : Reads (f a) rest b rest') : Reads (m >>= f) text b rest' := by
  intro position
  obtain ⟨position', hm⟩ := hm position
  obtain ⟨position'', hf⟩ := hf position'
  exact ⟨position'', (Exec.bind_of_ok hm).trans hf⟩

theorem pure (a : α) (text : Str) : Reads (pure a : Parser α) text a text := fun position =>
  ⟨position, rfl⟩

theorem peek (ch : UInt8) (text : Str) : Reads peek (ch :: text) ch (ch :: text) := fun position =>
  ⟨position, rfl⟩

theorem take (ch : UInt8) (text : Str) : Reads take (ch :: text) ch text := fun position =>
  ⟨position + 1, rfl⟩

/-- An expected character that is there. -/
theorem expect (ch : UInt8) (text : Str) : Reads (expect ch) (ch :: text) () text := by
  refine (take ch text).bind ?_
  rw [if_pos rfl]
  exact pure () text

/-- An optional character that is there. -/
theorem consume (ch : UInt8) (text : Str) : Reads (consume ch) (ch :: text) true text := by
  refine (peek ch text).bind ?_
  rw [if_pos rfl]
  exact fun position => ⟨position + 1, rfl⟩

/-- An optional character that is not there. -/
theorem consume_of_ne {ch other : UInt8} (h : other ≠ ch) (text : Str) :
    Reads (Json.consume ch) (other :: text) false (other :: text) := by
  refine (peek other text).bind ?_
  rw [if_neg h]
  exact pure false _

/-- White space before a character that is none. -/
theorem skipWhitespace {blank : Str} (hblank : Blank blank) {ch : UInt8} (h : isSpace ch = false)
    (text : Str) : Reads skipWhitespace (blank ++ ch :: text) () (ch :: text) := by
  intro position
  refine ⟨position + ((blank ++ ch :: text).takeWhile isSpace).length, ?_⟩
  show (_, Cursor.mk _ ((blank ++ ch :: text).dropWhile isSpace)) = _
  rw [dropWhile_blank hblank, List.dropWhile_cons_of_neg (by rw [h]; exact Bool.false_ne_true)]

end Reads

end Reads

/-! ## Strings -/

/-- The code that `escapeJson` writes is the byte that it was written for. -/
theorem hexCode_reads : ∀ ch : UInt8, ch < 0x20 → (hexCode ch).length = 4
    ∧ ((hexCode ch).mapM hexValue).map (List.foldl (fun code value => code <<< 4 ||| value) 0)
      = some ch.toNat := forall_byte (by decide +kernel)

/-- Hexadecimal digits are read as the number they denote. -/
theorem reads_parseHexDigits {digits : Str} {values : List ℕ} (h : digits.mapM hexValue = some values)
    (codePoint : ℕ) (rest : Str) :
    Reads (parseHexDigits digits.length codePoint) (digits ++ rest)
      (values.foldl (fun code value => code <<< 4 ||| value) codePoint) rest := by
  induction digits generalizing values codePoint with
  | nil =>
    obtain rfl := Option.some.inj h
    exact .pure _ _
  | cons digit digits ih =>
    rw [List.mapM_cons] at h
    obtain ⟨value, hvalue, h⟩ := Option.bind_eq_some_iff.mp h
    obtain ⟨values, hvalues, h⟩ := Option.bind_eq_some_iff.mp h
    obtain rfl := Option.some.inj h
    refine (Reads.take digit _).bind ?_
    rw [hvalue]
    exact ih hvalues _

/-- The escape of a control character is read as that character. -/
theorem reads_parseEscape_code {ch : UInt8} (hch : ch < 0x20) (result rest : Str) :
    Reads (parseEscape result) ('u'.toUInt8 :: (hexCode ch ++ rest)) (result ++ [ch]) rest := by
  obtain ⟨hlength, hcode⟩ := hexCode_reads ch hch
  obtain ⟨values, hvalues, hcode⟩ := Option.map_eq_some_iff.mp hcode
  have hread := reads_parseHexDigits hvalues 0 rest
  rw [hlength, hcode] at hread
  have hascii : appendUtf8 result ch.toNat = .ok (result ++ [ch]) := by
    have : ch.toNat ≤ 0x7F := by
      have := UInt8.lt_iff_toNat_lt.mp hch
      simp only [UInt8.reduceToNat] at this
      omega
    rw [appendUtf8, if_pos this, UInt8.ofNat_toNat]
  refine (Reads.take _ _).bind (hread.bind fun position => ⟨position, ?_⟩)
  rw [hascii]
  rfl

/-- An escaped byte is read as one character. -/
theorem reads_escapeChar {fuel : ℕ} {result rest a rest' : Str} (ch : UInt8)
    (h : Reads (parseCharacters fuel (result ++ [ch])) rest a rest') :
    Reads (parseCharacters (fuel + 1) result) (escapeChar ch ++ rest) a rest' := by
  unfold escapeChar
  split_ifs with hquote hslash h8 h12 hline hreturn htab hcontrol
  iterate 7
    · subst ch
      exact fun position => h (position + 2)
  · refine Reads.bind (fun position => ⟨position, rfl⟩) ?_
    refine Reads.bind (Reads.take '\\'.toUInt8 _) ?_
    exact (reads_parseEscape_code hcontrol result rest).bind h
  · refine Reads.bind (fun position => ⟨position, rfl⟩) ?_
    refine Reads.bind (Reads.take ch _) ?_
    simp only [if_neg hquote, if_neg hcontrol, if_neg hslash]
    exact h

/-- An escaped text, up to its closing quote, is read as the text. -/
theorem reads_parseCharacters (text : Str) {fuel : ℕ} (h : text.length < fuel) (result rest : Str) :
    Reads (parseCharacters fuel result) (escapeJson text ++ '"'.toUInt8 :: rest) (result ++ text)
      rest := by
  induction text generalizing fuel result with
  | nil =>
    obtain ⟨fuel, rfl⟩ : ∃ n, fuel = n + 1 := ⟨fuel - 1, by rw [List.length_nil] at h; omega⟩
    rw [List.append_nil]
    exact fun position => ⟨position + 1, rfl⟩
  | cons ch text ih =>
    rw [List.length_cons] at h
    obtain ⟨fuel, rfl⟩ : ∃ n, fuel = n + 1 := ⟨fuel - 1, by omega⟩
    rw [escapeJson, List.flatMap_cons, List.append_assoc]
    apply reads_escapeChar
    have hread := ih (Nat.lt_of_succ_lt_succ h) (result ++ [ch])
    rw [List.append_assoc, List.singleton_append] at hread
    exact hread

/-- Escaping does not make a text shorter. -/
theorem length_le_escapeJson (text : Str) : text.length ≤ (escapeJson text).length := by
  have hpos : ∀ ch, 1 ≤ (escapeChar ch).length := forall_byte (by decide +kernel)
  induction text with
  | nil => exact Nat.zero_le _
  | cons ch text ih =>
    rw [escapeJson, List.flatMap_cons, List.length_append, List.length_cons]
    have := hpos ch
    rw [escapeJson] at ih
    omega

/-- What `escapeJson` writes between quotes is read back. -/
theorem reads_parseString (text rest : Str) :
    Reads parseString ('"'.toUInt8 :: (escapeJson text ++ '"'.toUInt8 :: rest)) text rest := by
  refine (Reads.expect _ _).bind fun position => ?_
  have hlength : text.length < (escapeJson text ++ '"'.toUInt8 :: rest).length := by
    rw [List.length_append, List.length_cons]
    have := length_le_escapeJson text
    omega
  exact reads_parseCharacters text hlength [] rest position

/-! ## Numbers -/

/-- What follows a value: the end of its line. -/
def EndsLine (rest : Str) : Prop := rest.head? = some ','.toUInt8 ∨ rest.head? = some '\n'.toUInt8

/-- The end of a field ends a number. -/
theorem endsLine_finishField (comma : Bool) (rest : Str) : EndsLine (finishField comma ++ rest) := by
  cases comma
  · exact .inr rfl
  · exact .inl rfl

/-- The digits of a printed number, up to the end of its line. -/
theorem skipDigits_toStr (n : ℕ) {rest : Str} (hrest : EndsLine rest) (position : ℕ) :
    ∃ first tail, toStr n = first :: tail ∧ isDigit first = true
      ∧ skipDigits first ⟨position, toStr n ++ rest⟩
        = (.ok (), ⟨position + (toStr n).length, rest⟩) := by
  obtain ⟨first, digits, htext, -, hfirst, hzero⟩ := exists_digits n
  have hdigit : ∀ digit : Digit 10, isDigit digit.char = true := by
    have : ∀ value < 10, ∀ upper, isDigit (digitChar value upper) = true := by decide
    exact fun digit => this digit.value digit.value_lt digit.upper
  refine ⟨first.char, digits.map Digit.char, htext, hdigit first, ?_⟩
  rw [htext, skipDigits]
  split_ifs with h0
  · -- only zero starts with a zero
    have hn : n = 0 := by
      by_contra hne
      exact digitChar_ne_zero first.value first.value_lt (hfirst (Nat.pos_of_ne_zero hne)) _ h0
    rw [hzero hn]
    rfl
  · have hall : ∀ ch ∈ (first :: digits).map Digit.char, isDigit ch = true := by
      intro ch hch
      obtain ⟨digit, -, rfl⟩ := List.mem_map.mp hch
      exact hdigit digit
    have hstop : rest.takeWhile isDigit = [] ∧ rest.dropWhile isDigit = rest := by
      cases rest with
      | nil => exact ⟨rfl, rfl⟩
      | cons ch rest =>
        have hch : ¬ isDigit ch = true := by
          rcases hrest with h | h
          · obtain rfl := Option.some.inj h
            decide
          · obtain rfl := Option.some.inj h
            decide
        exact ⟨List.takeWhile_cons_of_neg hch, List.dropWhile_cons_of_neg hch⟩
    rw [skipWhile, Exec.modify_apply]
    simp only [List.takeWhile_append_of_pos hall, List.dropWhile_append_of_pos hall, hstop.1, hstop.2,
      List.append_nil]

/-- The end of a line does not continue an integer. -/
theorem EndsLine.peek {rest : Str} (h : EndsLine rest) :
    ∃ ch tail, rest = ch :: tail ∧ ¬ (ch = '.' ∨ ch = 'e' ∨ ch = 'E') := by
  cases rest with
  | nil => rcases h with h | h <;> cases h
  | cons ch tail =>
    refine ⟨ch, tail, rfl, ?_⟩
    rcases h with h | h
    · obtain rfl := Option.some.inj h
      decide
    · obtain rfl := Option.some.inj h
      decide

/-- A printed integer is a sign and the digits of a number, and `stoll` reads it back. -/
theorem exists_sign {value : ℤ} (hmin : int64Min ≤ value) (hmax : value ≤ int64Max) (rest : Str) :
    ∃ sign n, intToStr value = sign ++ toStr n ∧ stoll (sign ++ toStr n) = some value
      ∧ ∀ position, ∃ negative, consume '-' ⟨position, sign ++ (toStr n ++ rest)⟩
        = (.ok negative, ⟨position + sign.length, toStr n ++ rest⟩) := by
  have hrange : int64Min ≤ value ∧ value ≤ int64Max := ⟨hmin, hmax⟩
  rcases Int.lt_or_le value 0 with hneg | hnonneg
  · obtain ⟨n, rfl⟩ : ∃ n : ℕ, value = -n := ⟨value.natAbs, by omega⟩
    refine ⟨"-", n, intToStr_neg n (by omega), ?_, fun position => ⟨true, rfl⟩⟩
    show ((parseDigits 10 (toStr n)).bind _) = _
    rw [parseDigits_toStr]
    exact if_pos hrange
  · obtain ⟨n, rfl⟩ := Int.eq_ofNat_of_zero_le hnonneg
    obtain ⟨first, digits, htext, -⟩ := exists_digits n
    have hminus : first.char ≠ '-'.toUInt8 := by
      have : ∀ value < 10, ∀ upper, digitChar value upper ≠ '-'.toUInt8 := by decide
      exact this first.value first.value_lt first.upper
    refine ⟨[], n, rfl, ?_, fun position => ⟨false, ?_⟩⟩
    · rw [List.nil_append, stoll, parseDigits_toStr]
      · exact if_pos hrange
      · intro digits' heq
        rw [htext] at heq
        exact hminus (List.cons.inj heq).1
    · rw [htext]
      show (if first.char = '-'.toUInt8 then (do advance; pure true) else pure false : Parser Bool) _ = _
      rw [if_neg hminus]
      rfl

/-- A number of 64 bits is read as it was written. -/
theorem reads_parseNumber {value : ℤ} (hmin : int64Min ≤ value) (hmax : value ≤ int64Max) {rest : Str}
    (hrest : EndsLine rest) : Reads parseNumber (intToStr value ++ rest) value rest := by
  obtain ⟨sign, n, htext, hstoll, hconsume⟩ := exists_sign hmin hmax rest
  obtain ⟨ch, tail, rfl, hch⟩ := hrest.peek
  rw [htext, List.append_assoc]
  intro position
  obtain ⟨negative, hconsume⟩ := hconsume position
  obtain ⟨first, digits, hdigits, hdigit, hskip⟩ :=
    skipDigits_toStr n hrest (position + sign.length)
  have hpeek : peek ⟨position + sign.length, toStr n ++ ch :: tail⟩
      = (.ok first, ⟨position + sign.length, toStr n ++ ch :: tail⟩) := by
    rw [hdigits]
    rfl
  -- What was consumed is the sign and the digits, which `std::stoll` reads back.
  have htoken : (sign ++ (toStr n ++ ch :: tail)).take
      (position + sign.length + (toStr n).length - position) = sign ++ toStr n := by
    rw [← List.append_assoc, List.take_left']
    rw [List.length_append]
    omega
  refine ⟨position + sign.length + (toStr n).length, ?_⟩
  apply (Exec.bind_of_ok (Exec.get_apply _)).trans
  apply (Exec.bind_of_ok hconsume).trans
  apply (Exec.bind_of_ok hpeek).trans
  rw [if_pos hdigit]
  refine (Exec.bind_of_ok hskip).trans ((Exec.bind_of_ok (Exec.gets_apply _ _)).trans ?_)
  show (if ch = '.' ∨ ch = 'e' ∨ ch = 'E' then _ else _ : Parser ℤ) _ = _
  rw [if_neg hch]
  refine (Exec.bind_of_ok (Exec.get_apply _)).trans ?_
  dsimp only
  rw [htoken, hstoll]
  rfl

/-! ## Nested documents -/

/-- A line break and an indentation are white space. -/
theorem blank_newline (margin : ℕ) : Blank ('\n'.toUInt8 :: indent margin) := by
  intro ch hch
  rcases List.mem_cons.mp hch with rfl | hch
  · rfl
  · rw [List.eq_of_mem_replicate hch]
    rfl

theorem blank_space : Blank [' '.toUInt8] := fun _ hch => List.mem_singleton.mp hch ▸ rfl

/-- A number starts with a digit or a minus sign. -/
theorem exists_first_intToStr (value : ℤ) :
    ∃ ch tail, intToStr value = ch :: tail ∧ (ch = '-' ∨ isDigit ch = true) := by
  rcases Int.lt_or_le value 0 with hneg | hnonneg
  · obtain ⟨n, rfl⟩ : ∃ n : ℕ, value = -n := ⟨value.natAbs, by omega⟩
    exact ⟨_, _, intToStr_neg n (by omega), .inl rfl⟩
  · obtain ⟨n, rfl⟩ := Int.eq_ofNat_of_zero_le hnonneg
    obtain ⟨first, tail, htext, hdigit, -⟩ := skipDigits_toStr n (.inl rfl : EndsLine ",") 0
    exact ⟨first, tail, htext, .inr hdigit⟩

/-- No document starts like white space or like the end of an array. -/
theorem Document.exists_first (document : Document) (margin : ℕ) :
    ∃ ch tail, document.text margin = ch :: tail ∧ isSpace ch = false ∧ ch ≠ ']'.toUInt8 := by
  cases document with
  | boolean value =>
    cases value
    · exact ⟨_, _, rfl, by decide, by decide⟩
    · exact ⟨_, _, rfl, by decide, by decide⟩
  | number value =>
    obtain ⟨ch, tail, htext, hch⟩ := exists_first_intToStr value
    have hfirst : ∀ ch : UInt8, ch = '-' ∨ isDigit ch = true → isSpace ch = false ∧ ch ≠ ']'.toUInt8 :=
      forall_byte (by decide +kernel)
    exact ⟨ch, tail, htext, hfirst ch hch⟩
  | string value => exact ⟨_, _, rfl, by decide, by decide⟩
  | array elements => exact ⟨_, _, rfl, by decide, by decide⟩
  | object fields => exact ⟨_, _, rfl, by decide, by decide⟩

/-- White space before a document is skipped. -/
theorem Reads.skipTo (document : Document) (margin : ℕ) {blank : Str} (hblank : Blank blank)
    (rest : Str) : Reads Json.skipWhitespace (blank ++ (document.text margin ++ rest)) ()
      (document.text margin ++ rest) := by
  obtain ⟨ch, tail, htext, hspace, -⟩ := document.exists_first margin
  rw [htext]
  exact Reads.skipWhitespace hblank hspace _

/-- The lines of the elements, split at the first. -/
theorem newline_elementsText (margin : ℕ) (element : Document) (elements : List Document) (rest : Str) :
    '\n'.toUInt8 :: (Document.elementsText margin (element :: elements) ++ rest)
      = ('\n'.toUInt8 :: indent margin) ++ (element.text margin
        ++ (finishField (!elements.isEmpty) ++ (Document.elementsText margin elements ++ rest))) := by
  simp only [Document.elementsText, List.append_assoc, List.cons_append]

/-- The lines of the members, split at the first. -/
theorem newline_fieldsText (margin : ℕ) (name : Str) (document : Document)
    (fields : List (Str × Document)) (rest : Str) :
    '\n'.toUInt8 :: (Document.fieldsText margin ((name, document) :: fields) ++ rest)
      = ('\n'.toUInt8 :: indent margin) ++ ('"'.toUInt8 :: (escapeJson name ++ '"'.toUInt8
        :: ':'.toUInt8 :: ' '.toUInt8 :: (document.text margin ++ (finishField (!fields.isEmpty)
          ++ (Document.fieldsText margin fields ++ rest))))) := by
  have hcolon : Str.ofString "\": " = ['"'.toUInt8, ':'.toUInt8, ' '.toUInt8] := rfl
  have hquote : Str.ofString "\"" = ['"'.toUInt8] := rfl
  simp only [Document.fieldsText, fieldText, hcolon, hquote, List.append_assoc, List.cons_append,
    List.nil_append]

/-- With the given fuel, what is printed of the document is parsed to its value. -/
def ReadWith (fuel : ℕ) (document : Document) : Prop :=
  ∀ margin {blank rest}, Blank blank → EndsLine rest →
    Reads (parseValue fuel) (blank ++ (document.text margin ++ rest)) document.value rest

/-- The lines of the elements are read as their values. -/
theorem reads_parseElements {enough : ℕ} {element : Document} {elements : List Document}
    (h : ∀ document ∈ element :: elements, ∀ fuel ≥ enough, ReadWith fuel document) {fuel : ℕ}
    (hfuel : enough + elements.length < fuel) (values : List JsonValue) (margin : ℕ) {blank : Str}
    (hblank : Blank blank) (rest : Str) :
    Reads (parseElements fuel values)
      (blank ++ (element.text (margin + 2) ++ (finishField (!elements.isEmpty)
        ++ (Document.elementsText (margin + 2) elements ++ (indent margin ++ ']'.toUInt8 :: rest)))))
      (values ++ Document.valuesOf (element :: elements)) rest := by
  induction elements generalizing element fuel values blank with
  | nil =>
    obtain ⟨fuel, rfl⟩ : ∃ n, fuel = n + 1 := ⟨fuel - 1, by omega⟩
    apply (h element List.mem_cons_self fuel (by simp at hfuel; omega) (margin + 2) hblank
      (endsLine_finishField _ _)).bind
    -- No comma follows the last element, and the bracket closes the array.
    apply (Reads.skipWhitespace (blank_newline margin) (by decide) rest).bind
    exact (Reads.consume _ _).bind (.pure _ _)
  | cons next elements ih =>
    obtain ⟨fuel, rfl⟩ : ∃ n, fuel = n + 1 := ⟨fuel - 1, by omega⟩
    rw [List.length_cons] at hfuel
    apply (h element List.mem_cons_self fuel (by omega) (margin + 2) hblank
      (endsLine_finishField _ _)).bind
    -- A comma follows, and the next element on a line of its own.
    apply (Reads.skipWhitespace .nil (by decide : isSpace ','.toUInt8 = false) _).bind
    apply (Reads.consume_of_ne (by decide) _).bind
    apply (Reads.expect _ _).bind
    have hrest := ih (fun document hmem => h document (List.mem_cons_of_mem _ hmem))
      (by omega : enough + elements.length < fuel) (values ++ [element.value]) Blank.nil
    rw [List.append_assoc] at hrest
    have hskip := Reads.skipTo next (margin + 2) (blank_newline (margin + 2))
      (finishField (!elements.isEmpty) ++ (Document.elementsText (margin + 2) elements
        ++ (indent margin ++ ']'.toUInt8 :: rest)))
    rw [← newline_elementsText] at hskip
    exact hskip.bind hrest

/-- A new member leaves the other keys as they are. -/
theorem find?_emplace_eq_none {values : Members} {name key : Str} (value : JsonValue)
    (hnew : values.find? key = none) (hne : name ≠ key) :
    (values.emplace name value).find? key = none := by
  rw [Members.find?_eq_none] at hnew ⊢
  intro member hmember
  rcases SortedMap.mem_emplaceEntry hmember with rfl | hmember
  · exact hne
  · exact hnew member hmember

/-- The lines of the members are read as their values, under different keys. -/
theorem reads_parseMembers {enough : ℕ} {name : Str} {document : Document}
    {fields : List (Str × Document)}
    (h : ∀ field ∈ (name, document) :: fields, ∀ fuel ≥ enough, ReadWith fuel field.2)
    (hkeys : (((name, document) :: fields).map Prod.fst).Nodup) {fuel : ℕ}
    (hfuel : enough + fields.length < fuel) {values : Members}
    (hnew : ∀ key ∈ ((name, document) :: fields).map Prod.fst, values.find? key = none)
    (margin : ℕ) {blank : Str} (hblank : Blank blank) (rest : Str) :
    Reads (parseMembers fuel values)
      (blank ++ ('"'.toUInt8 :: (escapeJson name ++ '"'.toUInt8 :: ':'.toUInt8 :: ' '.toUInt8
        :: (document.text (margin + 2) ++ (finishField (!fields.isEmpty)
          ++ (Document.fieldsText (margin + 2) fields ++ (indent margin ++ '}'.toUInt8 :: rest)))))))
      (Document.membersOf values ((name, document) :: fields)) rest := by
  induction fields generalizing name document fuel values blank with
  | nil =>
    obtain ⟨fuel, rfl⟩ : ∃ n, fuel = n + 1 := ⟨fuel - 1, by omega⟩
    apply (Reads.skipWhitespace hblank (by decide) _).bind
    apply (Reads.peek _ _).bind
    rw [if_pos rfl]
    apply (reads_parseString name _).bind
    apply (Reads.skipWhitespace .nil (by decide : isSpace ':'.toUInt8 = false) _).bind
    apply (Reads.expect _ _).bind
    apply (Reads.skipTo document (margin + 2) blank_space _).bind
    apply (h _ List.mem_cons_self fuel (by simp at hfuel; omega) (margin + 2) Blank.nil
      (endsLine_finishField _ _)).bind
    rw [hnew name (by simp)]
    apply (Reads.skipWhitespace (blank_newline margin) (by decide : isSpace '}'.toUInt8 = false) rest).bind
    exact (Reads.consume _ _).bind (.pure _ _)
  | cons next fields ih =>
    obtain ⟨nextName, nextDocument⟩ := next
    obtain ⟨fuel, rfl⟩ : ∃ n, fuel = n + 1 := ⟨fuel - 1, by omega⟩
    rw [List.length_cons] at hfuel
    apply (Reads.skipWhitespace hblank (by decide) _).bind
    apply (Reads.peek _ _).bind
    rw [if_pos rfl]
    apply (reads_parseString name _).bind
    apply (Reads.skipWhitespace .nil (by decide : isSpace ':'.toUInt8 = false) _).bind
    apply (Reads.expect _ _).bind
    apply (Reads.skipTo document (margin + 2) blank_space _).bind
    apply (h _ List.mem_cons_self fuel (by omega) (margin + 2) Blank.nil
      (endsLine_finishField _ _)).bind
    rw [hnew name (by simp)]
    apply (Reads.skipWhitespace .nil (by decide : isSpace ','.toUInt8 = false) _).bind
    apply (Reads.consume_of_ne (by decide) _).bind
    apply (Reads.expect _ _).bind
    -- The keys are distinct, so the members read so far hold none of the keys to come.
    obtain ⟨hname, hkeys⟩ := List.nodup_cons.mp hkeys
    have hnew' : ∀ key ∈ ((nextName, nextDocument) :: fields).map Prod.fst,
        (values.emplace name document.value).find? key = none := by
      intro key hkey
      apply find?_emplace_eq_none _ (hnew key (List.mem_cons_of_mem _ hkey))
      rintro rfl
      exact hname hkey
    have hrest := ih (fun field hmem => h field (List.mem_cons_of_mem _ hmem)) hkeys
      (by omega : enough + fields.length < fuel) hnew' (blank_newline (margin + 2))
    rw [← newline_fieldsText] at hrest
    exact hrest

/-- What holds of every element from some number on holds of all of them from some number on. -/
theorem exists_enough {α : Type} {P : ℕ → α → Prop} {l : List α}
    (h : ∀ a ∈ l, ∃ enough, ∀ fuel ≥ enough, P fuel a) :
    ∃ enough, ∀ a ∈ l, ∀ fuel ≥ enough, P fuel a := by
  induction l with
  | nil => exact ⟨0, fun a hmem => absurd hmem List.not_mem_nil⟩
  | cons a l ih =>
    obtain ⟨enough, ha⟩ := h a List.mem_cons_self
    obtain ⟨enough', hl⟩ := ih fun a hmem => h a (List.mem_cons_of_mem _ hmem)
    refine ⟨max enough enough', fun b hmem fuel hfuel => ?_⟩
    rcases List.mem_cons.mp hmem with rfl | hmem
    · exact ha fuel (le_of_max_le_left hfuel)
    · exact hl b hmem fuel (le_of_max_le_right hfuel)

/-- A Boolean is read back. -/
theorem readWith_boolean (value : Bool) {fuel : ℕ} (hfuel : 0 < fuel) :
    ReadWith fuel (.boolean value) := by
  intro margin blank rest hblank _
  obtain ⟨fuel, rfl⟩ : ∃ n, fuel = n + 1 := ⟨fuel - 1, by omega⟩
  apply (Reads.skipTo (.boolean value) margin hblank rest).bind
  cases value
  · exact fun position => ⟨position + 5, rfl⟩
  · exact fun position => ⟨position + 4, rfl⟩

/-- A number of 64 bits is read back. -/
theorem readWith_number {value : Int} (hmin : int64Min ≤ value) (hmax : value ≤ int64Max) {fuel : ℕ}
    (hfuel : 0 < fuel) : ReadWith fuel (.number value) := by
  intro margin blank rest hblank hrest
  obtain ⟨fuel, rfl⟩ : ∃ n, fuel = n + 1 := ⟨fuel - 1, by omega⟩
  apply (Reads.skipTo (.number value) margin hblank rest).bind
  obtain ⟨ch, tail, htext, hch⟩ := exists_first_intToStr value
  have hpeek : Reads peek (intToStr value ++ rest) ch (intToStr value ++ rest) := by
    rw [htext]
    exact .peek _ _
  -- The first character of a number begins no other value.
  have hother : ∀ ch : UInt8, ch = '-' ∨ isDigit ch = true → ch ≠ '{'.toUInt8 ∧ ch ≠ '['.toUInt8
      ∧ ch ≠ '"'.toUInt8 ∧ ch ≠ 't'.toUInt8 ∧ ch ≠ 'f'.toUInt8 ∧ ch ≠ 'n'.toUInt8 :=
    forall_byte (by decide +kernel)
  obtain ⟨hbrace, hbracket, hquote, htrue, hfalse, hnull⟩ := hother ch hch
  apply hpeek.bind
  rw [if_neg hbrace, if_neg hbracket, if_neg hquote, if_neg htrue, if_neg hfalse, if_neg hnull,
    if_pos hch]
  exact (reads_parseNumber hmin hmax hrest).bind (.pure _ _)

/-- A string is read back. -/
theorem readWith_string (value : Str) {fuel : ℕ} (hfuel : 0 < fuel) :
    ReadWith fuel (.string value) := by
  intro margin blank rest hblank _
  obtain ⟨fuel, rfl⟩ : ∃ n, fuel = n + 1 := ⟨fuel - 1, by omega⟩
  have htext : Document.text margin (.string value) ++ rest
      = '"'.toUInt8 :: (escapeJson value ++ '"'.toUInt8 :: rest) := by
    show ('"'.toUInt8 :: (escapeJson value ++ ['"'.toUInt8])) ++ rest = _
    rw [List.cons_append, List.append_assoc, List.singleton_append]
  apply (Reads.skipTo (.string value) margin hblank rest).bind
  rw [htext]
  apply (Reads.peek _ _).bind
  rw [if_neg (by decide), if_neg (by decide), if_pos rfl]
  exact (reads_parseString value rest).bind (.pure _ _)

/-- An array is read back when its elements are. -/
theorem readWith_array {enough : ℕ} {elements : List Document}
    (hread : ∀ element ∈ elements, ∀ fuel ≥ enough, ReadWith fuel element) {fuel : ℕ}
    (hfuel : enough + elements.length < fuel) : ReadWith fuel (.array elements) := by
  intro margin blank rest hblank _
  obtain ⟨fuel, rfl⟩ : ∃ n, fuel = n + 1 := ⟨fuel - 1, by omega⟩
  have htext : Document.text margin (.array elements) ++ rest = '['.toUInt8 :: '\n'.toUInt8
      :: (Document.elementsText (margin + 2) elements
        ++ (indent margin ++ ']'.toUInt8 :: rest)) := by
    have hopen : Str.ofString "[\n" = ['['.toUInt8, '\n'.toUInt8] := rfl
    have hclose : Str.ofString "]" = [']'.toUInt8] := rfl
    simp only [Document.text, hopen, hclose, List.append_assoc, List.cons_append, List.nil_append]
  apply (Reads.skipTo (.array elements) margin hblank rest).bind
  rw [htext]
  apply (Reads.peek _ _).bind
  rw [if_neg (by decide), if_pos rfl]
  apply (Reads.expect _ _).bind
  -- An empty array is closed at once; otherwise the first element is not the closing bracket.
  cases elements with
  | nil =>
    apply (Reads.skipWhitespace (blank_newline margin) (by decide) rest).bind
    exact (Reads.consume _ _).bind (.pure _ _)
  | cons element elements =>
    obtain ⟨ch, tail, hfirst, -, hclose⟩ := element.exists_first (margin + 2)
    rw [newline_elementsText]
    apply (Reads.skipTo element (margin + 2) (blank_newline _) _).bind
    have hopen (tail : Str) : Reads (consume ']'.toUInt8) (element.text (margin + 2) ++ tail) false
        (element.text (margin + 2) ++ tail) := by
      rw [hfirst]
      exact Reads.consume_of_ne hclose _
    apply (hopen _).bind
    exact (reads_parseElements hread (by simp at hfuel; omega) [] margin .nil rest).bind (.pure _ _)

/-- An object with different keys is read back when its members are. -/
theorem readWith_object {enough : ℕ} {fields : List (Str × Document)}
    (hkeys : (fields.map Prod.fst).Nodup)
    (hread : ∀ field ∈ fields, ∀ fuel ≥ enough, ReadWith fuel field.2) {fuel : ℕ}
    (hfuel : enough + fields.length < fuel) : ReadWith fuel (.object fields) := by
  intro margin blank rest hblank _
  obtain ⟨fuel, rfl⟩ : ∃ n, fuel = n + 1 := ⟨fuel - 1, by omega⟩
  have htext : Document.text margin (.object fields) ++ rest = '{'.toUInt8 :: '\n'.toUInt8
      :: (Document.fieldsText (margin + 2) fields ++ (indent margin ++ '}'.toUInt8 :: rest)) := by
    have hopen : Str.ofString "\x7b\n" = ['{'.toUInt8, '\n'.toUInt8] := rfl
    have hclose : Str.ofString "\x7d" = ['}'.toUInt8] := rfl
    simp only [Document.text, hopen, hclose, List.append_assoc, List.cons_append, List.nil_append]
  apply (Reads.skipTo (.object fields) margin hblank rest).bind
  rw [htext]
  apply (Reads.peek _ _).bind
  rw [if_pos rfl]
  apply (Reads.expect _ _).bind
  cases fields with
  | nil =>
    apply (Reads.skipWhitespace (blank_newline margin) (by decide) rest).bind
    exact (Reads.consume _ _).bind (.pure _ _)
  | cons field fields =>
    obtain ⟨name, document⟩ := field
    rw [newline_fieldsText]
    apply (Reads.skipWhitespace (blank_newline _) (by decide) _).bind
    apply (Reads.consume_of_ne (by decide) _).bind
    apply Reads.bind (reads_parseMembers hread hkeys (by simp at hfuel; omega) (fun _ _ => rfl) margin
      .nil rest)
    exact .pure _ _

/-- With enough fuel, every readable document is read. -/
theorem Document.Readable.readWith {document : Document} (h : document.Readable) :
    ∃ enough, ∀ fuel ≥ enough, ReadWith fuel document := by
  induction h with
  | boolean value => exact ⟨1, fun _ hfuel => readWith_boolean value hfuel⟩
  | number hmin hmax => exact ⟨1, fun _ hfuel => readWith_number hmin hmax hfuel⟩
  | string value => exact ⟨1, fun _ hfuel => readWith_string value hfuel⟩
  | @array elements _ ih =>
    obtain ⟨enough, hread⟩ := exists_enough ih
    exact ⟨enough + elements.length + 1, fun _ hfuel => readWith_array hread hfuel⟩
  | @object fields hkeys _ ih =>
    obtain ⟨enough, hread⟩ := exists_enough ih
    exact ⟨enough + fields.length + 1, fun _ hfuel => readWith_object hkeys hread hfuel⟩

/-- The text of a readable document, on lines of its own, is parsed to its value. -/
theorem parse_text {document : Document} (h : document.Readable) :
    parse (document.text 0 ++ "\n") = .ok document.value := by
  obtain ⟨enough, hread⟩ := h.readWith
  set text := document.text 0 ++ Str.ofString "\n" with htext
  rw [← parse_of_fuel text (le_max_right enough (2 * text.length + 1))]
  have hparsed : Reads (parseDocument (max enough (2 * text.length + 1))) text document.value [] := by
    refine Reads.bind (?_ : Reads _ _ () text) ?_
    · exact Reads.skipTo document 0 .nil _
    · apply (hread _ (le_max_left _ _) 0 .nil (.inr rfl)).bind
      exact fun position => ⟨position + 1, rfl⟩
  obtain ⟨position, hrun⟩ := hparsed 0
  rw [hrun]

/-! ## Indenting again -/

/-- `spaces` more in front of every line but the first. -/
def reindent (spaces : ℕ) (text : Str) : Str :=
  text.flatMap fun (ch : UInt8) => if ch = '\n' then '\n' :: indent spaces else [ch]

/-- Moving a text to the right, a character at a time. -/
theorem reindent_cons (spaces : ℕ) (ch : UInt8) (text : Str) :
    reindent spaces (ch :: text)
      = (if ch = '\n' then '\n'.toUInt8 :: indent spaces else [ch]) ++ reindent spaces text :=
  List.flatMap_cons

theorem reindent_append (spaces : ℕ) (text rest : Str) :
    reindent spaces (text ++ rest) = reindent spaces text ++ reindent spaces rest :=
  List.flatMap_append

/-- A text of one line stays as it is. -/
theorem reindent_of_line {spaces : ℕ} {text : Str} (h : ∀ ch ∈ text, ch ≠ '\n'.toUInt8) :
    reindent spaces text = text := by
  induction text with
  | nil => rfl
  | cons ch text ih =>
    obtain ⟨hch, htext⟩ := List.forall_mem_cons.mp h
    rw [reindent_cons, if_neg hch]
    exact congrArg (ch :: ·) (ih htext)

/-- An indentation has no line break to move. -/
theorem reindent_indent (spaces margin : ℕ) : reindent spaces (indent margin) = indent margin :=
  reindent_of_line fun ch hch => by
    rw [List.eq_of_mem_replicate hch]
    decide

/-- An escaped text has no line break to move. -/
theorem reindent_escapeJson (spaces : ℕ) (text : Str) :
    reindent spaces (escapeJson text) = escapeJson text := by
  have hescaped : ∀ ch, ∀ escaped ∈ escapeChar ch, escaped ≠ '\n'.toUInt8 :=
    forall_byte (by decide +kernel)
  refine reindent_of_line fun ch hch => ?_
  obtain ⟨original, -, hch⟩ := List.mem_flatMap.mp hch
  exact hescaped original ch hch

/-- The end of a line moves the next line. -/
theorem reindent_finishField (spaces : ℕ) (comma : Bool) :
    reindent spaces (finishField comma) = finishField comma ++ indent spaces := by
  cases comma
  · exact congrArg ('\n'.toUInt8 :: ·) (List.append_nil _)
  · exact congrArg (','.toUInt8 :: '\n'.toUInt8 :: ·) (List.append_nil _)

theorem indent_add (spaces margin : ℕ) : indent spaces ++ indent margin = indent (margin + spaces) := by
  rw [indent, indent, List.replicate_append_replicate, Nat.add_comm, indent]

/-- Elements that move to the right move together. -/
theorem reindent_elementsText {spaces margin : ℕ} {elements : List Document}
    (h : ∀ element ∈ elements,
      reindent spaces (element.text margin) = element.text (margin + spaces)) :
    indent spaces ++ reindent spaces (Document.elementsText margin elements)
      = Document.elementsText (margin + spaces) elements ++ indent spaces := by
  induction elements with
  | nil => exact List.append_nil _
  | cons element elements ih =>
    obtain ⟨helement, helements⟩ := List.forall_mem_cons.mp h
    simp only [Document.elementsText, reindent_append, reindent_indent, helement,
      reindent_finishField, List.append_assoc, ih helements]
    rw [← List.append_assoc, indent_add]

/-- Members that move to the right move together. -/
theorem reindent_fieldsText {spaces margin : ℕ} {fields : List (Str × Document)}
    (h : ∀ field ∈ fields,
      reindent spaces (field.2.text margin) = field.2.text (margin + spaces)) :
    indent spaces ++ reindent spaces (Document.fieldsText margin fields)
      = Document.fieldsText (margin + spaces) fields ++ indent spaces := by
  induction fields with
  | nil => exact List.append_nil _
  | cons field fields ih =>
    obtain ⟨hfield, hfields⟩ := List.forall_mem_cons.mp h
    have hquote : reindent spaces "\"" = "\"" := rfl
    have hcolon : reindent spaces "\": " = "\": " := rfl
    simp only [Document.fieldsText, fieldText, reindent_append, reindent_indent, reindent_escapeJson,
      hquote, hcolon, hfield, reindent_finishField, List.append_assoc, ih hfields]
    rw [← List.append_assoc, indent_add]

/-- Indenting a document again prints it with a wider margin: the line feeds inside its strings are
escaped. -/
theorem Document.Readable.reindent_text {document : Document} (h : document.Readable) (spaces : ℕ) :
    ∀ margin, reindent spaces (document.text margin) = document.text (margin + spaces) := by
  induction h with
  | boolean value =>
    intro margin
    cases value <;> rfl
  | @number value =>
    intro margin
    refine reindent_of_line fun ch hch => ?_
    have hchar : ∀ ch, isLiteralChar ch = true → ch ≠ '\n'.toUInt8 := forall_byte (by decide +kernel)
    obtain ⟨literal, htext, -⟩ := exists_literal value
    exact hchar ch (literal.text_chars ch (htext ▸ hch))
  | string value =>
    intro margin
    have hquote : reindent spaces "\"" = "\"" := rfl
    simp only [Document.text, reindent_append, reindent_escapeJson, hquote]
  | @array elements _ ih =>
    intro margin
    have hopen : reindent spaces "[\n" = "[\n" ++ indent spaces := by
      show '['.toUInt8 :: '\n'.toUInt8 :: (indent spaces ++ []) = _
      rw [List.append_nil]
      rfl
    have hclose : reindent spaces "]" = "]" := rfl
    have hlines := reindent_elementsText fun element hmem => ih element hmem (margin + 2)
    simp only [Document.text, reindent_append, hopen, hclose, reindent_indent, List.append_assoc]
    rw [← List.append_assoc (indent spaces), hlines, List.append_assoc,
      ← List.append_assoc (indent spaces), indent_add, Nat.add_right_comm]
  | @object fields hkeys _ ih =>
    intro margin
    have hopen : reindent spaces "\x7b\n" = "\x7b\n" ++ indent spaces := by
      show '{'.toUInt8 :: '\n'.toUInt8 :: (indent spaces ++ []) = _
      rw [List.append_nil]
      rfl
    have hclose : reindent spaces "\x7d" = "\x7d" := rfl
    have hlines := reindent_fieldsText fun field hmem => ih field hmem (margin + 2)
    simp only [Document.text, reindent_append, hopen, hclose, reindent_indent, List.append_assoc]
    rw [← List.append_assoc (indent spaces), hlines, List.append_assoc,
      ← List.append_assoc (indent spaces), indent_add, Nat.add_right_comm]

/-- A text that is not empty has a line. -/
theorem splitLinesFrom_ne_nil {current text : Str} (h : text ≠ []) : splitLinesFrom current text ≠ [] := by
  induction text generalizing current with
  | nil => exact absurd rfl h
  | cons ch text ih =>
    rw [splitLinesFrom]
    split_ifs with hch
    · exact List.cons_ne_nil _ _
    · cases text with
      | nil => simp [splitLinesFrom]
      | cons next text => exact ih (List.cons_ne_nil _ _)

/-- The lines of a text that does not end in a line feed, put together again. -/
theorem intercalate_splitLinesFrom (spaces : ℕ) {text : Str}
    (h : text.getLast? ≠ some '\n'.toUInt8) (current : Str) :
    ('\n'.toUInt8 :: indent spaces).intercalate (splitLinesFrom current text)
      = current ++ reindent spaces text := by
  induction text generalizing current with
  | nil =>
    rw [splitLinesFrom]
    split_ifs with hcurrent
    · rw [hcurrent]
      rfl
    · rw [List.intercalate_singleton]
      exact (List.append_nil current).symm
  | cons ch text ih =>
    rw [splitLinesFrom]
    split_ifs with hch
    · -- more follows the line feed
      have hne : text ≠ [] := by
        rintro rfl
        exact h (congrArg some hch)
      have hlast : text.getLast? ≠ some '\n'.toUInt8 := by
        rwa [List.getLast?_cons_of_ne_nil hne] at h
      rw [List.intercalate_cons_of_ne_nil (splitLinesFrom_ne_nil hne), ih hlast, List.append_assoc]
      rw [reindent_cons, if_pos hch]
      rfl
    · have hlast : text.getLast? ≠ some '\n'.toUInt8 := by
        cases text with
        | nil => exact Option.some_ne_none _ ∘ Eq.symm
        | cons next text => exact h
      rw [ih hlast, List.append_assoc, reindent_cons, if_neg hch]

end ZeroCpu.Json
