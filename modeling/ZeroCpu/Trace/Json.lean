import Mathlib.Data.List.Lex
import ZeroCpu.Assembler.Text
import ZeroCpu.Library.Exec
import ZeroCpu.Library.SortedMap

/-!
# JSON documents and their parser

Reference: `JsonValue` and `JsonParser` in `src/trace/TraceJsonDiff.cpp`.

Numbers are integers of 64 bits and an object is a `std::map`: its members in ascending order of
their keys, each key once (`WellFormed`). The parser walks over the text with a `Cursor`. Its
recursion over nested values runs on fuel, of which twice the length of the text is always enough
(`parse_of_fuel`).
-/

namespace ZeroCpu.Json

open Library Assembler

/-- A JSON value, with the members of an object in the order of their keys. -/
inductive JsonValue where
  | null
  | boolean (value : Bool)
  | number (value : ℤ)
  | string (value : Str)
  | array (values : List JsonValue)
  | object (members : List (Str × JsonValue))

/-- The entries of a `std::map<std::string, JsonValue>`. -/
abbrev Members : Type := List (Str × JsonValue)

/-- `std::map::find`. -/
def Members.find? (members : Members) (key : Str) : Option JsonValue :=
  (List.find? (fun member => member.1 == key) members).map Prod.snd

/-- `std::map::emplace`. -/
def Members.emplace (members : Members) (key : Str) (value : JsonValue) : Members :=
  SortedMap.emplaceEntry key value members

/-- The members of every object are in ascending order of their keys. -/
inductive WellFormed : JsonValue → Prop
  | null : WellFormed .null
  | boolean (value : Bool) : WellFormed (.boolean value)
  | number (value : ℤ) : WellFormed (.number value)
  | string (value : Str) : WellFormed (.string value)
  | array {values : List JsonValue} (h : ∀ value ∈ values, WellFormed value) :
      WellFormed (.array values)
  | object {members : Members} (sorted : members.Pairwise fun a b => a.1 < b.1)
      (h : ∀ member ∈ members, WellFormed member.2) : WellFormed (.object members)

/-- A member that is found is there. -/
theorem Members.mem_of_find? {members : Members} {key : Str} {value : JsonValue}
    (h : members.find? key = some value) : (key, value) ∈ members := by
  obtain ⟨member, hfind, rfl⟩ := Option.map_eq_some_iff.mp h
  have hkey : member.1 = key := beq_iff_eq.mp (List.find?_some hfind :)
  exact hkey ▸ List.mem_of_find?_eq_some hfind

/-- A key is not found exactly when no member has it. -/
theorem Members.find?_eq_none {members : Members} {key : Str} :
    members.find? key = none ↔ ∀ member ∈ members, member.1 ≠ key := by
  rw [Members.find?, Option.map_eq_none_iff, List.find?_eq_none]
  simp only [beq_iff_eq, ne_eq]

namespace WellFormed

/-- The members of an object are sorted by key. -/
theorem sorted {members : Members} (h : WellFormed (.object members)) :
    members.Pairwise fun a b => a.1 < b.1 := by
  cases h with
  | object sorted _ => exact sorted

/-- The members of a well formed object are well formed. -/
theorem member {members : Members} (h : WellFormed (.object members)) {member : Str × JsonValue}
    (hmem : member ∈ members) : WellFormed member.2 := by
  cases h with
  | object _ hmembers => exact hmembers member hmem

/-- The elements of a well formed array are well formed. -/
theorem element {values : List JsonValue} (h : WellFormed (.array values)) {value : JsonValue}
    (hmem : value ∈ values) : WellFormed value := by
  cases h with
  | array hvalues => exact hvalues value hmem

/-- Each key stands once. -/
theorem find?_eq_some {members : Members} (h : WellFormed (.object members)) {key : Str}
    {value : JsonValue} : Members.find? members key = some value ↔ (key, value) ∈ members := by
  refine ⟨Members.mem_of_find?, fun hmem => ?_⟩
  cases hfind : Members.find? members key with
  | none => exact absurd rfl (Members.find?_eq_none.mp hfind _ hmem)
  | some other =>
    let map : SortedMap Str JsonValue := ⟨members, h.sorted⟩
    exact (map.find?_of_mem (Members.mem_of_find? hfind)).symm.trans (map.find?_of_mem hmem)

theorem empty : WellFormed (.object []) := .object .nil fun _ h => absurd h List.not_mem_nil

/-- A well formed object stays well formed with one more member. -/
theorem emplace {members : Members} (h : WellFormed (.object members)) (key : Str)
    {value : JsonValue} (hvalue : WellFormed value) :
    WellFormed (.object (members.emplace key value)) := by
  refine .object (SortedMap.sorted_emplaceEntry h.sorted) fun other hmem => ?_
  rcases SortedMap.mem_emplaceEntry hmem with rfl | hmem
  · exact hvalue
  · exact h.member hmem

end WellFormed

/-! ## The cursor -/

/-- The parser's position and the text from there on. -/
structure Cursor where
  position : ℕ
  rest : Str

/-- A parser reads from a cursor and may throw a message. -/
abbrev Parser : Type → Type := Exec Str Cursor

section Cursor

variable {α β : Type}

/-- Throw, with the position in the message. -/
def fail (message : Str) : Parser α := fun c =>
  (.error (message ++ " at byte " ++ toStr c.position), c)

/-- Nothing is left of the text. -/
def atEnd : Parser Bool := Exec.gets fun c => c.rest.isEmpty

/-- The next byte, and the null character at the end. -/
def peek : Parser UInt8 := Exec.gets fun c => c.rest.headD 0

/-- `++position_`. -/
def advance : Parser Unit := Exec.modify fun c => ⟨c.position + 1, c.rest.tail⟩

/-- The next character, which is consumed. -/
def take : Parser UInt8 := fun c =>
  match c.rest with
  | [] => fail "Unexpected end of JSON input" c
  | ch :: rest => (.ok ch, ⟨c.position + 1, rest⟩)

/-- Move over the longest run of bytes of a class. -/
def skipWhile (skipped : UInt8 → Bool) : Parser Unit := Exec.modify fun c =>
  ⟨c.position + (c.rest.takeWhile skipped).length, c.rest.dropWhile skipped⟩

/-- Skip white space. -/
def skipWhitespace : Parser Unit := skipWhile isSpace

/-- Consume a character that has to be there. -/
def expect (expected : UInt8) : Parser Unit := do
  let actual ← take
  if actual = expected then pure ()
  else fail ("Expected '" ++ [expected] ++ "' but found '" ++ [actual] ++ "'")

/-- Consume a character if it is there. -/
def consume (expected : UInt8) : Parser Bool := do
  let ch ← peek
  if ch = expected then do
    advance
    pure true
  else pure false

/-! ## Scalars -/

/-- A code point in UTF-8. -/
def appendUtf8 (output : Str) (codePoint : ℕ) : Except Str Str :=
  if codePoint ≤ 0x7F then .ok (output ++ [UInt8.ofNat codePoint])
  else if codePoint ≤ 0x7FF then
    .ok (output ++ [UInt8.ofNat (0xC0 ||| codePoint >>> 6), UInt8.ofNat (0x80 ||| codePoint &&& 0x3F)])
  else if 0xD800 ≤ codePoint ∧ codePoint ≤ 0xDFFF then
    .error "JSON surrogate pairs are not supported"
  else
    .ok (output ++ [UInt8.ofNat (0xE0 ||| codePoint >>> 12),
      UInt8.ofNat (0x80 ||| (codePoint >>> 6) &&& 0x3F), UInt8.ofNat (0x80 ||| codePoint &&& 0x3F)])

/-- `hexValue`, with `none` for -1. -/
def hexValue (ch : UInt8) : Option ℕ :=
  if isDigit ch then some (ch.toNat - '0'.toNat)
  else if decide ('a'.toUInt8 ≤ ch) && decide (ch ≤ 'f'.toUInt8) then
    some (10 + ch.toNat - 'a'.toNat)
  else if decide ('A'.toUInt8 ≤ ch) && decide (ch ≤ 'F'.toUInt8) then
    some (10 + ch.toNat - 'A'.toNat)
  else none

/-- The loop over the digits of a `\u` escape. -/
def parseHexDigits : ℕ → ℕ → Parser ℕ
  | 0, codePoint => pure codePoint
  | count + 1, codePoint => do
      let ch ← take
      match hexValue ch with
      | some value => parseHexDigits count (codePoint <<< 4 ||| value)
      | none => fail "Invalid Unicode escape"

/-- The escapes of one letter. -/
def simpleEscape (escape : UInt8) : Option UInt8 :=
  if escape = '"' then some '"'
  else if escape = '\\' then some '\\'
  else if escape = '/' then some '/'
  else if escape = 'b' then some 8
  else if escape = 'f' then some 12
  else if escape = 'n' then some '\n'
  else if escape = 'r' then some '\r'
  else if escape = 't' then some '\t'
  else none

/-- What follows a backslash, appended to the string read so far. -/
def parseEscape (result : Str) : Parser Str := do
  let escape ← take
  match simpleEscape escape with
  | some ch => pure (result ++ [ch])
  | none =>
      if escape = 'u' then do
        let codePoint ← parseHexDigits 4 0
        Exec.lift (appendUtf8 result codePoint)
      else fail "Invalid JSON string escape"

/-- The loop of `parseString`. Each turn takes a byte, so that the number of bytes left bounds the
number of turns. -/
def parseCharacters : ℕ → Str → Parser Str
  | 0, _ => fail "Unterminated JSON string"
  | fuel + 1, result => do
      let ended ← atEnd
      if ended then fail "Unterminated JSON string"
      else do
        let ch ← take
        if ch = '"' then pure result
        else if ch < 0x20 then fail "Unescaped control character in JSON string"
        else if ch = '\\' then do
          let result ← parseEscape result
          parseCharacters fuel result
        else parseCharacters fuel (result ++ [ch])

/-- A string between quotes, with its escapes. -/
def parseString : Parser Str := do
  expect '"'
  let c ← Exec.get
  parseCharacters c.rest.length []

/-- `std::stoll(token, &parsed, 10)` of an optional sign and digits; it throws out of range. -/
def stoll (token : Str) : Option ℤ :=
  let inRange (value : ℤ) : Option ℤ :=
    if int64Min ≤ value ∧ value ≤ int64Max then some value else none
  match token with
  | 45 :: digits => (parseDigits 10 digits).bind fun magnitude => inRange (-(magnitude : ℤ))
  | digits => (parseDigits 10 digits).bind fun magnitude => inRange magnitude

/-- The digits of a number: a zero stands alone. -/
def skipDigits (first : UInt8) : Parser Unit :=
  if first = '0' then advance else skipWhile isDigit

/-- A number, which has to fit into 64 bits. -/
def parseNumber : Parser ℤ := do
  let start ← Exec.get
  let _ ← consume '-'
  let first ← peek
  if isDigit first then do
    skipDigits first
    let next ← peek
    if next = '.' ∨ next = 'e' ∨ next = 'E' then fail "Trace JSON requires integer numbers"
    else do
      let finish ← Exec.get
      match stoll (start.rest.take (finish.position - start.position)) with
      | some value => pure value
      | none => fail "Integer number is out of range"
  else fail "JSON number requires digits"

/-- The loop of `parseLiteral`. -/
def parseLiteralFrom (literal : Str) : Str → Parser Unit
  | [] => pure ()
  | current :: rest => do
      let ch ← take
      if ch = current then parseLiteralFrom literal rest
      else fail ("Invalid JSON literal: " ++ literal)

/-- A word such as `true`. -/
def parseLiteral (literal : Str) : Parser Unit := parseLiteralFrom literal literal

/-! ## Nested values -/

/-- An object, around a parser of its members. -/
def parseObject (parseMembers : Members → Parser Members) : Parser JsonValue := do
  expect '{'
  skipWhitespace
  let closed ← consume '}'
  if closed then pure (.object [])
  else do
    let values ← parseMembers []
    pure (.object values)

/-- An array, around a parser of its elements. -/
def parseArray (parseElements : List JsonValue → Parser (List JsonValue)) : Parser JsonValue := do
  expect '['
  skipWhitespace
  let closed ← consume ']'
  if closed then pure (.array [])
  else do
    let values ← parseElements []
    pure (.array values)

mutual

/-- A value. The fuel bounds the nesting and the number of elements. -/
def parseValue : ℕ → Parser JsonValue
  | 0 => fail "Unexpected JSON token"
  | fuel + 1 => do
      skipWhitespace
      let ch ← peek
      if ch = '{' then parseObject (parseMembers fuel)
      else if ch = '[' then parseArray (parseElements fuel)
      else if ch = '"' then do
        let value ← parseString
        pure (.string value)
      else if ch = 't' then do
        parseLiteral "true"
        pure (.boolean true)
      else if ch = 'f' then do
        parseLiteral "false"
        pure (.boolean false)
      else if ch = 'n' then do
        parseLiteral "null"
        pure .null
      else if ch = '-' ∨ isDigit ch then do
        let value ← parseNumber
        pure (.number value)
      else fail "Unexpected JSON token"

/-- The loop of `parseObject`. -/
def parseMembers : ℕ → Members → Parser Members
  | 0, _ => fail "Unexpected JSON token"
  | fuel + 1, values => do
      skipWhitespace
      let quote ← peek
      if quote = '"' then do
        let key ← parseString
        skipWhitespace
        expect ':'
        skipWhitespace
        let value ← parseValue fuel
        if (values.find? key).isSome then fail ("Duplicate JSON object key: " ++ key)
        else do
          skipWhitespace
          let closed ← consume '}'
          if closed then pure (values.emplace key value)
          else do
            expect ','
            parseMembers fuel (values.emplace key value)
      else fail "Object key must be a JSON string"

/-- The loop of `parseArray`. -/
def parseElements : ℕ → List JsonValue → Parser (List JsonValue)
  | 0, _ => fail "Unexpected JSON token"
  | fuel + 1, values => do
      let value ← parseValue fuel
      skipWhitespace
      let closed ← consume ']'
      if closed then pure (values ++ [value])
      else do
        expect ','
        skipWhitespace
        parseElements fuel (values ++ [value])

end

/-- Parse with a given amount of fuel. -/
def parseDocument (fuel : ℕ) : Parser JsonValue := do
  skipWhitespace
  let value ← parseValue fuel
  skipWhitespace
  let ended ← atEnd
  if ended then pure value else fail "Unexpected trailing characters"

/-- `JsonParser(text).parse()`. -/
def parse (text : Str) : Except Str JsonValue :=
  (parseDocument (2 * text.length + 1) ⟨0, text⟩).1

/-! ## What parsing consumes -/

/-- A return of `m` leaves at least `k` bytes fewer. -/
def Consumes (k : ℕ) (m : Parser α) : Prop :=
  ∀ c a c', m c = (.ok a, c') → c'.rest.length + k ≤ c.rest.length

namespace Consumes

variable {k l : ℕ}

/-- What two parsers consume in sequence. -/
theorem bind {m : Parser α} {f : α → Parser β} (hm : Consumes k m) (hf : ∀ a, Consumes l (f a)) :
    Consumes (k + l) (m >>= f) := by
  intro c b c'' h
  obtain ⟨a, c', h1, h2⟩ := Exec.bind_eq_ok.mp h
  have := hm c a c' h1
  have := hf a c' b c'' h2
  omega

/-- A parser consumes at least any smaller number. -/
theorem mono {m : Parser α} (h : Consumes k m) (hl : l ≤ k) : Consumes l m := by
  intro c a c' hm
  have := h c a c' hm
  omega

/-- A first part that takes nothing back is free. -/
theorem after {m : Parser α} {f : α → Parser β} (hm : Consumes 0 m) (hf : ∀ a, Consumes k (f a)) :
    Consumes k (m >>= f) :=
  (hm.bind hf).mono (by omega)

/-- `pure` need not consume anything. -/
theorem pure (a : α) : Consumes 0 (pure a : Parser α) := by
  intro c b c' h
  obtain ⟨-, rfl⟩ := Exec.pure_eq_ok.mp h
  exact le_refl _

theorem fail (message : Str) : Consumes k (fail message : Parser α) := by
  intro c a c' h
  cases h

/-- Looking at the cursor consumes nothing. -/
theorem gets (f : Cursor → α) : Consumes 0 (Exec.gets f : Parser α) := by
  intro c a c' h
  obtain ⟨-, rfl⟩ := Prod.mk.inj h
  exact le_refl _

theorem get : Consumes 0 (Exec.get : Parser Cursor) := gets id

/-- A result from elsewhere consumes nothing. -/
theorem lift (r : Except Str α) : Consumes 0 (Exec.lift r : Parser α) := by
  intro c a c' h
  obtain ⟨-, rfl⟩ := Prod.mk.inj h
  exact le_refl _

/-- A choice consumes what both branches consume. -/
theorem ite {p : Prop} [Decidable p] {m n : Parser α} (hm : Consumes k m) (hn : Consumes k n) :
    Consumes k (if p then m else n) := by
  split
  · exact hm
  · exact hn

/-- Skipping never gives anything back. -/
theorem skipWhile (skipped : UInt8 → Bool) : Consumes 0 (skipWhile skipped) := by
  intro c a c' h
  obtain ⟨-, rfl⟩ := Prod.mk.inj h
  exact (List.dropWhile_suffix _).length_le

/-- Advancing never gives anything back. -/
theorem advance : Consumes 0 advance := by
  intro c a c' h
  obtain ⟨-, rfl⟩ := Prod.mk.inj h
  show c.rest.tail.length ≤ c.rest.length
  simp

/-- Taking a character consumes one. -/
theorem take : Consumes 1 take := by
  intro c a c' h
  unfold Json.take at h
  split at h
  · cases h
  · next ch rest heq =>
    obtain ⟨-, rfl⟩ := Prod.mk.inj h
    rw [heq]
    exact le_refl _

theorem expect (expected : UInt8) : Consumes 1 (expect expected) :=
  take.bind fun _ => ite (pure _) (fail _)

theorem consume (expected : UInt8) : Consumes 0 (consume expected) :=
  (gets _).after fun _ => ite (advance.after fun _ => pure _) (pure _)

/-- Hexadecimal digits never give anything back. -/
theorem parseHexDigits (count codePoint : ℕ) : Consumes 0 (parseHexDigits count codePoint) := by
  induction count generalizing codePoint with
  | zero => exact pure _
  | succ count ih =>
    refine (take.mono (Nat.zero_le _)).after fun ch => ?_
    split
    · exact ih _
    · exact fail _

/-- An escape never gives anything back. -/
theorem parseEscape (result : Str) : Consumes 0 (parseEscape result) := by
  refine (take.mono (Nat.zero_le _)).after fun escape => ?_
  split
  · exact pure _
  · exact ite ((parseHexDigits 4 0).after fun _ => lift _) (fail _)

/-- The characters of a string never give anything back. -/
theorem parseCharacters (fuel : ℕ) (result : Str) : Consumes 0 (parseCharacters fuel result) := by
  induction fuel generalizing result with
  | zero => exact fail _
  | succ fuel ih =>
    refine (gets _).after fun ended => ite (fail _) ?_
    refine (take.mono (Nat.zero_le _)).after fun ch => ?_
    exact ite (pure _) (ite (fail _) (ite ((parseEscape _).after fun _ => ih _) (ih _)))

theorem parseString : Consumes 1 parseString :=
  (expect _).bind fun _ => get.after fun _ => parseCharacters _ _

/-- A number never gives anything back. -/
theorem parseNumber : Consumes 0 parseNumber := by
  refine get.after fun start => (consume _).after fun _ => (gets _).after fun first => ?_
  refine ite ?_ (fail _)
  refine (ite advance (skipWhile _)).after fun _ => (gets _).after fun next => ite (fail _) ?_
  refine get.after fun finish => ?_
  split
  · exact pure _
  · exact fail _

/-- The rest of a literal never gives anything back. -/
theorem parseLiteralFrom (literal rest : Str) : Consumes 0 (parseLiteralFrom literal rest) := by
  induction rest with
  | nil => exact pure _
  | cons current rest ih => exact (take.mono (Nat.zero_le _)).after fun _ => ite ih (fail _)

/-- An object never gives anything back. -/
theorem parseObject {members : Members → Parser Members} (h : Consumes 0 (members [])) :
    Consumes 0 (parseObject members) :=
  ((expect _).mono (Nat.zero_le _)).after fun _ => (skipWhile _).after fun _ =>
    (consume _).after fun _ => ite (pure _) (h.after fun _ => pure _)

/-- An array never gives anything back. -/
theorem parseArray {elements : List JsonValue → Parser (List JsonValue)}
    (h : Consumes 0 (elements [])) : Consumes 0 (parseArray elements) :=
  ((expect _).mono (Nat.zero_le _)).after fun _ => (skipWhile _).after fun _ =>
    (consume _).after fun _ => ite (pure _) (h.after fun _ => pure _)

/-- The three functions of the recursion, together: each calls the others with less fuel. -/
theorem nested (fuel : ℕ) :
    Consumes 0 (parseValue fuel) ∧ (∀ values, Consumes 0 (parseMembers fuel values)) ∧
      ∀ values, Consumes 0 (parseElements fuel values) := by
  induction fuel with
  | zero => exact ⟨fail _, fun _ => fail _, fun _ => fail _⟩
  | succ fuel ih =>
    obtain ⟨hvalue, hmembers, helements⟩ := ih
    have hexpect : ∀ ch, Consumes 0 (Json.expect ch) := fun ch =>
      (expect ch).mono (Nat.zero_le _)
    have hstring : Consumes 0 Json.parseString := parseString.mono (Nat.zero_le _)
    refine ⟨?_, fun values => ?_, fun values => ?_⟩
    · refine (skipWhile _).after fun _ => (gets _).after fun ch => ?_
      refine ite (parseObject (hmembers [])) (ite (parseArray (helements [])) ?_)
      refine ite (hstring.after fun _ => pure _) ?_
      refine ite ((parseLiteralFrom _ _).after fun _ => pure _) ?_
      refine ite ((parseLiteralFrom _ _).after fun _ => pure _) ?_
      refine ite ((parseLiteralFrom _ _).after fun _ => pure _) ?_
      exact ite (parseNumber.after fun _ => pure _) (fail _)
    · refine (skipWhile _).after fun _ => (gets _).after fun quote => ite ?_ (fail _)
      refine hstring.after fun key => (skipWhile _).after fun _ => (hexpect _).after fun _ => ?_
      refine (skipWhile _).after fun _ => hvalue.after fun value => ite (fail _) ?_
      refine (skipWhile _).after fun _ => (consume _).after fun _ => ite (pure _) ?_
      exact (hexpect _).after fun _ => hmembers _
    · refine hvalue.after fun value => (skipWhile _).after fun _ => (consume _).after fun _ => ?_
      refine ite (pure _) ((hexpect _).after fun _ => (skipWhile _).after fun _ => helements _)

end Consumes

/-! ## The fuel is enough -/

/-- The two parsers do the same wherever at most `n` bytes are left. -/
def AgreeUpTo (n : ℕ) (m m' : Parser α) : Prop := ∀ c, c.rest.length ≤ n → m c = m' c

namespace AgreeUpTo

variable {n k : ℕ}

theorem refl (m : Parser α) : AgreeUpTo n m m := fun _ _ => rfl

/-- After `k` characters are consumed, the second parts need to agree on the shorter rest only. -/
theorem bind {m m' : Parser α} {f f' : α → Parser β} (hm : AgreeUpTo n m m') (hk : Consumes k m)
    (hf : ∀ a, k ≤ n → AgreeUpTo (n - k) (f a) (f' a)) : AgreeUpTo n (m >>= f) (m' >>= f') := by
  intro c hc
  rw [Exec.bind_apply, Exec.bind_apply, ← hm c hc]
  rcases hout : m c with ⟨e | a, c'⟩
  · rfl
  · have := hk c a c' hout
    exact hf a (by omega) c' (by omega)

/-- Behind a common first part. -/
theorem after {m : Parser α} {f f' : α → Parser β} (hk : Consumes 0 m)
    (hf : ∀ a, AgreeUpTo n (f a) (f' a)) : AgreeUpTo n (m >>= f) (m >>= f') :=
  (refl m).bind hk fun a _ => hf a

/-- A choice between parsers that agree. -/
theorem ite {p : Prop} [Decidable p] {l l' m m' : Parser α} (hl : AgreeUpTo n l l')
    (hm : AgreeUpTo n m m') : AgreeUpTo n (if p then l else m) (if p then l' else m') := by
  split
  · exact hl
  · exact hm

/-- More fuel than characters makes no difference to a string. -/
theorem parseCharacters {fuel : ℕ} (hn : n ≤ fuel) (result : Str) :
    AgreeUpTo n (parseCharacters fuel result) (parseCharacters (fuel + 1) result) := by
  induction fuel generalizing n result with
  | zero =>
    intro c hc
    -- no byte is left: both sides stop at the end of the text
    have hnil : c.rest = [] := List.eq_nil_of_length_eq_zero (by omega)
    simp [Json.parseCharacters, Exec.bind_apply, atEnd, hnil]
  | succ fuel ih =>
    refine after (.gets _) fun ended => ite (refl _) ?_
    refine bind (refl _) .take fun ch _ => ite (refl _) (ite (refl _) (ite ?_ (ih (by omega) _)))
    exact after (.parseEscape _) fun _ => ih (by omega) _

/-- One unit of fuel more changes nothing when the fuel already covers the text. -/
theorem nested (fuel : ℕ) :
    (∀ n, 2 * n + 1 ≤ fuel → AgreeUpTo n (parseValue fuel) (parseValue (fuel + 1))) ∧
    (∀ n values, 2 * n + 2 ≤ fuel →
      AgreeUpTo n (parseMembers fuel values) (parseMembers (fuel + 1) values)) ∧
    (∀ n values, 2 * n + 2 ≤ fuel →
      AgreeUpTo n (parseElements fuel values) (parseElements (fuel + 1) values)) := by
  induction fuel with
  | zero => exact ⟨fun n h => by omega, fun n _ h => by omega, fun n _ h => by omega⟩
  | succ fuel ih =>
    obtain ⟨hvalue, hmembers, helements⟩ := ih
    obtain ⟨cvalue, -, -⟩ := Consumes.nested fuel
    refine ⟨fun n hn => ?_, fun n values hn => ?_, fun n values hn => ?_⟩
    · refine after (.skipWhile _) fun _ => after (.gets _) fun ch => ite ?_ (ite ?_ (refl _))
      · refine bind (refl _) (.expect _) fun _ _ => after (.skipWhile _) fun _ => ?_
        refine after (.consume _) fun _ => ite (refl _) ?_
        exact bind (hmembers _ _ (by omega)) ((Consumes.nested fuel).2.1 _) fun _ _ => refl _
      · refine bind (refl _) (.expect _) fun _ _ => after (.skipWhile _) fun _ => ?_
        refine after (.consume _) fun _ => ite (refl _) ?_
        exact bind (helements _ _ (by omega)) ((Consumes.nested fuel).2.2 _) fun _ _ => refl _
    · refine after (.skipWhile _) fun _ => after (.gets _) fun quote => ite ?_ (refl _)
      refine bind (refl _) .parseString fun key _ => after (.skipWhile _) fun _ => ?_
      refine bind (refl _) (.expect _) fun _ _ => after (.skipWhile _) fun _ => ?_
      refine bind (hvalue _ (by omega)) cvalue fun value _ => ite (refl _) ?_
      refine after (.skipWhile _) fun _ => after (.consume _) fun _ => ite (refl _) ?_
      exact bind (refl _) (.expect _) fun _ _ => hmembers _ _ (by omega)
    · refine bind (hvalue _ (by omega)) cvalue fun value _ => after (.skipWhile _) fun _ => ?_
      refine after (.consume _) fun _ => ite (refl _) (bind (refl _) (.expect _) fun _ _ => ?_)
      exact after (.skipWhile _) fun _ => helements _ _ (by omega)

end AgreeUpTo

/-- The fuel of `parse` is enough: with more of it, a text is parsed to the same result. -/
theorem parse_of_fuel (text : Str) {fuel : ℕ} (h : 2 * text.length + 1 ≤ fuel) :
    (parseDocument fuel ⟨0, text⟩).1 = parse text := by
  have hstep : ∀ fuel, 2 * text.length + 1 ≤ fuel →
      AgreeUpTo text.length (parseDocument fuel) (parseDocument (fuel + 1)) := by
    intro fuel hfuel
    refine .after (.skipWhile _) fun _ => ?_
    exact .bind ((AgreeUpTo.nested fuel).1 _ hfuel) (Consumes.nested fuel).1 fun _ _ => .refl _
  induction fuel, h using Nat.le_induction with
  | base => rfl
  | succ fuel hle ih => rw [← hstep fuel hle _ (le_refl _), ih]

/-! ## What is parsed is well formed -/

/-- A return of `m` gives a value with the property `P`. -/
def Yields (P : α → Prop) (m : Parser α) : Prop := ∀ c a c', m c = (.ok a, c') → P a

namespace Yields

variable {P : α → Prop} {Q : β → Prop}

/-- `pure` yields its value. -/
theorem pure {a : α} (h : P a) : Yields P (pure a) := by
  intro c b c' hm
  obtain ⟨rfl, -⟩ := Exec.pure_eq_ok.mp hm
  exact h

theorem fail (message : Str) : Yields P (fail message) := by
  intro c a c' h
  cases h

/-- What the second part yields after what the first has yielded. -/
theorem bind {m : Parser α} {f : α → Parser β} (hm : Yields P m) (hf : ∀ a, P a → Yields Q (f a)) :
    Yields Q (m >>= f) := by
  intro c b c'' h
  obtain ⟨a, c', h1, h2⟩ := Exec.bind_eq_ok.mp h
  exact hf a (hm c a c' h1) c' b c'' h2

/-- Behind a part whose value does not matter. -/
theorem after {m : Parser α} {f : α → Parser β} (hf : ∀ a, Yields Q (f a)) : Yields Q (m >>= f) :=
  bind (P := fun _ => True) (fun _ _ _ _ => trivial) fun a _ => hf a

/-- What both branches yield. -/
theorem ite {p : Prop} [Decidable p] {m n : Parser α} (hm : p → Yields P m) (hn : ¬ p → Yields P n) :
    Yields P (if p then m else n) := by
  by_cases h : p
  · rw [if_pos h]
    exact hm h
  · rw [if_neg h]
    exact hn h

/-- Objects and arrays are built of well-formed values; a member goes in under a new key. -/
theorem nested (fuel : ℕ) :
    Yields WellFormed (parseValue fuel) ∧
    (∀ values, WellFormed (.object values) →
      Yields (fun values => WellFormed (.object values)) (parseMembers fuel values)) ∧
    (∀ values, WellFormed (.array values) →
      Yields (fun values => WellFormed (.array values)) (parseElements fuel values)) := by
  induction fuel with
  | zero => exact ⟨fail _, fun _ _ => fail _, fun _ _ => fail _⟩
  | succ fuel ih =>
    obtain ⟨hvalue, hmembers, helements⟩ := ih
    have harray : WellFormed (.array []) := .array fun _ h => absurd h List.not_mem_nil
    refine ⟨?_, fun values hvalues => ?_, fun values hvalues => ?_⟩
    · refine after fun _ => after fun ch => ite (fun _ => ?_) fun _ => ite (fun _ => ?_) fun _ => ?_
      · refine after fun _ => after fun _ => after fun _ => ite (fun _ => pure WellFormed.empty) fun _ => ?_
        exact bind (hmembers _ WellFormed.empty) fun _ h => pure h
      · refine after fun _ => after fun _ => after fun _ => ite (fun _ => pure harray) fun _ => ?_
        exact bind (helements _ harray) fun _ h => pure h
      · refine ite (fun _ => after fun _ => pure (.string _)) fun _ => ?_
        refine ite (fun _ => after fun _ => pure (.boolean _)) fun _ => ?_
        refine ite (fun _ => after fun _ => pure (.boolean _)) fun _ => ?_
        refine ite (fun _ => after fun _ => pure .null) fun _ => ?_
        exact ite (fun _ => after fun _ => pure (.number _)) fun _ => fail _
    · refine after fun _ => after fun quote => ite (fun _ => ?_) fun _ => fail _
      refine after fun key => after fun _ => after fun _ => after fun _ => ?_
      refine bind hvalue fun value hwf => ite (fun _ => fail _) fun _ => ?_
      have hnext := hvalues.emplace key hwf
      refine after fun _ => after fun _ => ite (fun _ => pure hnext) fun _ => ?_
      exact after fun _ => hmembers _ hnext
    · refine bind hvalue fun value hwf => after fun _ => after fun _ => ?_
      have hnext : WellFormed (.array (values ++ [value])) := by
        refine .array fun other hmem => ?_
        rcases List.mem_append.mp hmem with hmem | hmem
        · exact hvalues.element hmem
        · exact List.mem_singleton.mp hmem ▸ hwf
      refine ite (fun _ => pure hnext) fun _ => after fun _ => after fun _ => ?_
      exact helements _ hnext

end Yields

/-- Every parsed value is well formed. -/
theorem parse_wellFormed {text : Str} {value : JsonValue} (h : parse text = .ok value) :
    WellFormed value := by
  have hyields : ∀ fuel, Yields WellFormed (parseDocument fuel) := fun fuel =>
    .after fun _ => .bind (Yields.nested fuel).1 fun value hwf => .after fun _ => .after fun _ =>
      .ite (fun _ => .pure hwf) fun _ => .fail _
  exact hyields _ _ value _ (Prod.ext h rfl)

end Cursor

end ZeroCpu.Json
