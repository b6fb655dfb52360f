import ZeroCpu.Assembler.Spaces

/-!
# Integer literals

The decimal, hexadecimal and octal literals as syntax, and the integer that `tryParseInteger` reads
off the text of one.
-/

namespace ZeroCpu.Assembler

open Library Binary

/-! ## Syntax -/

/-- A digit of a base up to 16; letters come in either case. -/
structure Digit (base : ℕ) where
  value : ℕ
  value_lt : value < base
  upper : Bool := false
deriving DecidableEq

/-- The character of a digit, in either case. -/
def digitChar (value : ℕ) (upper : Bool) : UInt8 :=
  if value < 10 then '0'.toUInt8 + UInt8.ofNat value
  else (if upper then 'A'.toUInt8 else 'a'.toUInt8) + UInt8.ofNat (value - 10)

/-- A digit as it is written. -/
def Digit.char {base : ℕ} (digit : Digit base) : UInt8 := digitChar digit.value digit.upper

/-- The number that a digit string stands for. -/
def magnitudeOf {base : ℕ} (digits : List (Digit base)) : ℕ :=
  digits.foldl (fun value digit => value * base + digit.value) 0

/-- An unsigned literal. What starts with a zero is hexadecimal or octal, zero itself included. -/
inductive Numeral where
  | decimal (first : Digit 10) (rest : List (Digit 10)) (hfirst : first.value ≠ 0)
  | hexadecimal (upper : Bool) (first : Digit 16) (rest : List (Digit 16))
  | octal (digits : List (Digit 8))

/-- The sign of a literal. -/
inductive Sign where
  | none
  | plus
  | minus
deriving DecidableEq

/-- A number with a sign, as it can be written. -/
structure Literal where
  sign : Sign := .none
  numeral : Numeral

/-- A numeral as it is written. -/
def Numeral.text : Numeral → Str
  | .decimal first rest _ => (first :: rest).map Digit.char
  | .hexadecimal upper first rest =>
      '0'.toUInt8 :: (if upper then 'X'.toUInt8 else 'x'.toUInt8) :: (first :: rest).map Digit.char
  | .octal digits => '0'.toUInt8 :: digits.map Digit.char

/-- The number that a numeral denotes. -/
def Numeral.magnitude : Numeral → ℕ
  | .decimal first rest _ => magnitudeOf (first :: rest)
  | .hexadecimal _ first rest => magnitudeOf (first :: rest)
  | .octal digits => magnitudeOf digits

/-- A literal as it is written. -/
def Literal.text (literal : Literal) : Str :=
  match literal.sign with
  | .none => literal.numeral.text
  | .plus => '+'.toUInt8 :: literal.numeral.text
  | .minus => '-'.toUInt8 :: literal.numeral.text

/-- The number that a literal denotes. -/
def Literal.value (literal : Literal) : ℤ :=
  match literal.sign with
  | .minus => -(literal.numeral.magnitude : ℤ)
  | _ => literal.numeral.magnitude

/-! ## Characters of a literal -/

/-- A property of all bytes, by checking each. -/
theorem forall_byte {p : UInt8 → Prop} (h : ∀ n : Fin 256, p (UInt8.ofNat n.val)) (byte : UInt8) :
    p byte := by
  have := h ⟨byte.toNat, byte.toNat_lt⟩
  rwa [UInt8.ofNat_toNat] at this

/-- The digits and letters. -/
theorem isAlnum_digitChar : ∀ value < 16, ∀ upper, isAlnum (digitChar value upper) = true := by
  decide

theorem digitValue_digitChar :
    ∀ value < 16, ∀ upper, digitValue (digitChar value upper) = some value := by
  decide

theorem digitChar_not_x :
    ∀ value < 8, ∀ upper, (toLower (digitChar value upper) == 'x'.toUInt8) = false := by
  decide

theorem digitChar_ne_zero :
    ∀ value < 10, value ≠ 0 → ∀ upper, digitChar value upper ≠ '0'.toUInt8 := by
  decide

variable {base : ℕ}

theorem Digit.isAlnum_char (hbase : base ≤ 16) (digit : Digit base) :
    isAlnum digit.char = true :=
  isAlnum_digitChar _ (Nat.lt_of_lt_of_le digit.value_lt hbase) _

/-- Digits consist of letters and digits. -/
theorem isAlnum_chars (hbase : base ≤ 16) (digits : List (Digit base)) :
    ∀ ch ∈ digits.map Digit.char, isAlnum ch = true := by
  intro ch hch
  obtain ⟨digit, -, rfl⟩ := List.mem_map.mp hch
  exact digit.isAlnum_char hbase

/-- Numerals consist of letters and digits. -/
theorem Numeral.isAlnum_text (numeral : Numeral) : ∀ ch ∈ numeral.text, isAlnum ch = true := by
  cases numeral with
  | decimal first rest _ => exact isAlnum_chars (by decide) _
  | hexadecimal upper first rest =>
    refine List.forall_mem_cons.mpr ⟨by decide, List.forall_mem_cons.mpr ⟨?_, ?_⟩⟩
    · cases upper <;> decide
    · exact isAlnum_chars (by decide) _
  | octal digits => exact List.forall_mem_cons.mpr ⟨by decide, isAlnum_chars (by decide) _⟩

theorem Numeral.text_ne_nil (numeral : Numeral) : numeral.text ≠ [] := by
  cases numeral <;> exact List.cons_ne_nil _ _

/-- The characters of a literal. -/
def isLiteralChar (ch : UInt8) : Bool := isAlnum ch || ch == '+' || ch == '-'

/-- A literal consists of literal characters. -/
theorem Literal.text_chars (literal : Literal) : ∀ ch ∈ literal.text, isLiteralChar ch = true := by
  have hnumeral : ∀ ch ∈ literal.numeral.text, isLiteralChar ch = true := fun ch hch => by
    rw [isLiteralChar, literal.numeral.isAlnum_text ch hch, Bool.true_or, Bool.true_or]
  unfold Literal.text
  cases literal.sign with
  | none => exact hnumeral
  | plus => exact List.forall_mem_cons.mpr ⟨by decide, hnumeral⟩
  | minus => exact List.forall_mem_cons.mpr ⟨by decide, hnumeral⟩

/-- A literal is not empty. -/
theorem Literal.text_ne_nil (literal : Literal) : literal.text ≠ [] := by
  unfold Literal.text
  cases literal.sign with
  | none => exact literal.numeral.text_ne_nil
  | plus => exact List.cons_ne_nil _ _
  | minus => exact List.cons_ne_nil _ _

theorem not_space_of_literalChar (ch : UInt8) : isLiteralChar ch = true → isSpace ch = false := by
  revert ch
  exact forall_byte (by decide +kernel)

theorem Literal.solid (literal : Literal) : Solid literal.text := fun ch hch =>
  not_space_of_literalChar ch (literal.text_chars ch hch)

/-! ## Reading a literal -/

/-- Digits are read from the left. -/
theorem foldlM_digits (hbase : base ≤ 16) (digits : List (Digit base)) (start : ℕ) :
    (digits.map Digit.char).foldlM (fun value ch => do
        let digit ← digitValue ch
        if digit < base then some (value * base + digit) else none) start
      = some (digits.foldl (fun value digit => value * base + digit.value) start) := by
  induction digits generalizing start with
  | nil => rfl
  | cons digit digits ih =>
    have hvalue : digitValue digit.char = some digit.value :=
      digitValue_digitChar _ (Nat.lt_of_lt_of_le digit.value_lt hbase) _
    rw [List.map_cons, List.foldlM_cons, hvalue, Option.bind_eq_bind, Option.bind_some,
      if_pos digit.value_lt, Option.bind_some]
    exact ih _

theorem parseDigits_chars (hbase : base ≤ 16) {digits : List (Digit base)} (hne : digits ≠ []) :
    parseDigits base (digits.map Digit.char) = some (magnitudeOf digits) := by
  rw [parseDigits, if_neg (mt List.map_eq_nil_iff.mp hne), foldlM_digits hbase, magnitudeOf]

/-- A numeral is parsed as the number it denotes. -/
theorem parseMagnitude_text (numeral : Numeral) :
    parseMagnitude numeral.text = some numeral.magnitude := by
  cases numeral with
  | decimal first rest hfirst =>
    -- A decimal numeral does not start with a zero, so it is not taken for another base.
    have hzero : first.char ≠ 48 := digitChar_ne_zero _ first.value_lt hfirst _
    rw [Numeral.text, Numeral.magnitude, ← parseDigits_chars (by decide) (List.cons_ne_nil _ _)]
    unfold parseMagnitude
    split
    · next heq => exact absurd (List.cons.inj heq).1 hzero
    · next heq => exact absurd (List.cons.inj heq).1 hzero
    · rfl
  | hexadecimal upper first rest =>
    have hx : (toLower (if upper then 'X'.toUInt8 else 'x'.toUInt8) == 'x'.toUInt8) = true := by
      cases upper <;> decide
    change (if _ then parseDigits 16 ((first :: rest).map Digit.char) else _) = _
    rw [if_pos hx, parseDigits_chars (by decide) (List.cons_ne_nil _ _)]
    rfl
  | octal digits =>
    have hzero : parseDigits 8 ('0'.toUInt8 :: digits.map Digit.char) = some (magnitudeOf digits) := by
      have hread := parseDigits_chars (by decide) (List.cons_ne_nil (⟨0, by decide, false⟩ : Digit 8) digits)
      rw [List.map_cons] at hread
      refine hread.trans (congrArg some ?_)
      rw [magnitudeOf, List.foldl_cons]
      rfl
    cases digits with
    | nil => exact hzero
    | cons digit digits =>
      have hx : ¬ (toLower digit.char == 'x'.toUInt8) = true :=
        Bool.eq_false_iff.mp (digitChar_not_x _ digit.value_lt _)
      change (if _ then _ else parseDigits 8 ('0'.toUInt8 :: (digit :: digits).map Digit.char)) = _
      rw [if_neg hx]
      exact hzero

/-- A literal is parsed as its value when it fits into a signed word. -/
theorem tryParseInteger_text (literal : Literal) :
    tryParseInteger literal.text
      = if int64Min ≤ literal.value ∧ literal.value ≤ int64Max then
          some (BitVec.ofInt 64 literal.value)
        else none := by
  have hspace : literal.text.dropWhile isSpace = literal.text :=
    dropWhile_of_head literal.solid.trimmed.head
  obtain ⟨sign, numeral⟩ := literal
  have hread := parseMagnitude_text numeral
  unfold tryParseInteger
  rw [hspace]
  cases sign with
  | plus =>
    simp only [Literal.text, Literal.value]
    change (parseMagnitude numeral.text >>= _) = _
    rw [hread]
    rfl
  | minus =>
    simp only [Literal.text, Literal.value]
    change (parseMagnitude numeral.text >>= _) = _
    rw [hread]
    rfl
  | none =>
    simp only [Literal.text, Literal.value]
    have halnum := numeral.isAlnum_text
    split
    · next heq => exact absurd (halnum 45 (heq ▸ List.mem_cons_self)) (by decide)
    · next heq => exact absurd (halnum 43 (heq ▸ List.mem_cons_self)) (by decide)
    · rw [hread]
      rfl

end ZeroCpu.Assembler
