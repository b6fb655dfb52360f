import ZeroCpu.Assembler.Literals

/-!
# Printed integers

`std::to_string` prints a decimal literal, so what it prints reads back as the number it was given.
-/

namespace ZeroCpu.Assembler

open Library Binary

theorem toUInt8_digitChar : ∀ value < 10, (Nat.digitChar value).toUInt8 = digitChar value false := by
  decide

/-- A digit more at the end of a number. -/
theorem magnitudeOf_append {base : ℕ} (digits : List (Digit base)) (digit : Digit base) :
    magnitudeOf (digits ++ [digit]) = magnitudeOf digits * base + digit.value := by
  rw [magnitudeOf, List.foldl_append]
  rfl

/-- The digits of a number, without a leading zero unless the number is zero. -/
theorem exists_digits (n : ℕ) :
    ∃ first : Digit 10, ∃ rest : List (Digit 10), toStr n = (first :: rest).map Digit.char
      ∧ magnitudeOf (first :: rest) = n ∧ (0 < n → first.value ≠ 0)
      ∧ (n = 0 → rest = []) := by
  have hprinted : toStr n = (Nat.toDigits 10 n).map Char.toUInt8 := by
    show ((toString n).toList).map Char.toUInt8 = _
    rw [Nat.toString_eq_ofList_toDigits, String.toList_ofList]
  rw [hprinted]
  clear hprinted
  induction n using Nat.strongRecOn with
  | _ n ih =>
    rcases Nat.lt_or_ge n 10 with hlt | hge
    · refine ⟨⟨n, hlt, false⟩, [], ?_, ?_, fun hpos => hpos.ne', fun _ => rfl⟩
      · rw [Nat.toDigits_of_lt_base hlt, List.map_singleton, List.map_singleton]
        exact congrArg (fun ch => [ch]) (toUInt8_digitChar n hlt)
      · rw [magnitudeOf, List.foldl_cons, List.foldl_nil, Nat.zero_mul, Nat.zero_add]
    · obtain ⟨first, rest, htext, hvalue, hfirst, -⟩ := ih (n / 10) (by omega)
      have hlt : n % 10 < 10 := Nat.mod_lt n (by decide)
      refine ⟨first, rest ++ [⟨n % 10, hlt, false⟩], ?_, ?_, fun _ => hfirst (by omega), by omega⟩
      · rw [Nat.toDigits_of_base_le (by decide) hge, List.map_append, htext, List.map_singleton,
          toUInt8_digitChar _ hlt, ← List.cons_append, List.map_append]
        rfl
      · rw [← List.cons_append, magnitudeOf_append, hvalue]
        show n / 10 * 10 + n % 10 = n
        omega

/-- A printed number is a numeral that stands for it. -/
theorem exists_numeral (n : ℕ) : ∃ numeral : Numeral, numeral.text = toStr n
    ∧ numeral.magnitude = n := by
  obtain ⟨first, rest, htext, hvalue, hfirst, hrest⟩ := exists_digits n
  rcases Nat.eq_zero_or_pos n with rfl | hpos
  · exact ⟨.octal [], by decide, rfl⟩
  · exact ⟨.decimal first rest (hfirst hpos), htext.symm, hvalue⟩

/-- A number that is not negative is printed without a sign. -/
theorem intToStr_natCast (n : ℕ) : intToStr n = toStr n := rfl

/-- A negative number is printed with a minus sign. -/
theorem intToStr_neg (n : ℕ) (hpos : 0 < n) : intToStr (-n) = '-'.toUInt8 :: toStr n := by
  obtain ⟨m, rfl⟩ : ∃ m, n = m + 1 := ⟨n - 1, by omega⟩
  show ((toString (Int.negSucc m)).toList).map Char.toUInt8 = _
  show (("-" ++ Nat.repr (m + 1)).toList).map Char.toUInt8 = _
  rw [String.toList_append, List.map_append]
  rfl

/-- A printed signed number is a literal that stands for it. -/
theorem exists_literal (value : ℤ) : ∃ literal : Literal, literal.text = intToStr value
    ∧ literal.value = value := by
  rcases Int.lt_or_le value 0 with hneg | hnonneg
  · obtain ⟨n, rfl⟩ : ∃ n : ℕ, value = -n := ⟨value.natAbs, by omega⟩
    obtain ⟨numeral, htext, hvalue⟩ := exists_numeral n
    refine ⟨⟨.minus, numeral⟩, ?_, ?_⟩
    · rw [intToStr_neg n (by omega), ← htext]
      rfl
    · show -(numeral.magnitude : ℤ) = _
      rw [hvalue]
  · obtain ⟨n, rfl⟩ := Int.eq_ofNat_of_zero_le hnonneg
    obtain ⟨numeral, htext, hvalue⟩ := exists_numeral n
    refine ⟨⟨.none, numeral⟩, ?_, ?_⟩
    · rw [intToStr_natCast, ← htext]
      rfl
    · show (numeral.magnitude : ℤ) = _
      rw [hvalue]

/-- A number is read back from what is printed of it, without its base. -/
theorem parseDigits_toStr (n : ℕ) : parseDigits 10 (toStr n) = some n := by
  obtain ⟨first, rest, htext, hvalue, -, -⟩ := exists_digits n
  rw [htext, parseDigits_chars (by decide) (List.cons_ne_nil _ _), hvalue]

/-- A printed number is not empty. -/
theorem toStr_ne_nil (n : ℕ) : toStr n ≠ [] := by
  obtain ⟨numeral, htext, -⟩ := exists_numeral n
  rw [← htext]
  exact numeral.text_ne_nil

/-- A printed number consists of digits. -/
theorem isAlnum_toStr (n : ℕ) : ∀ ch ∈ toStr n, isAlnum ch = true := by
  obtain ⟨numeral, htext, -⟩ := exists_numeral n
  rw [← htext]
  exact numeral.isAlnum_text

/-- A printed number is read back from its text. -/
theorem tryParseInteger_intToStr (value : Word) :
    tryParseInteger (intToStr value.toInt) = some value := by
  obtain ⟨literal, htext, hvalue⟩ := exists_literal value.toInt
  have hle := BitVec.le_toInt value
  have hlt := BitVec.toInt_lt (x := value)
  have hrange : int64Min ≤ value.toInt ∧ value.toInt ≤ int64Max := by
    simp only [int64Min, int64Max]
    omega
  rw [← htext, tryParseInteger_text, hvalue, if_pos hrange, BitVec.ofInt_toInt]

end ZeroCpu.Assembler
