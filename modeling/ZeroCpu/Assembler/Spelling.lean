import ZeroCpu.Assembler.Printing
import ZeroCpu.Assembler.StringData
import ZeroCpu.Isa.Lossless
import ZeroCpu.Trace.ControlFlow

/-!
# Printed instructions

Reference: `src/isa/Instruction.cpp`, `src/isa/Operand.cpp`, `src/assembler/Assembler.cpp`.

What `Instruction::toString` prints is a source line of the same instruction, in any letter case and
with any white space around it. A source operand is the exception when there is no destination: no
line of source text has one.
-/

namespace ZeroCpu

open Library

/-- There is a first operand. -/
def Instruction.hasDestination (instruction : Instruction) : Bool := instruction.dst != .none

/-- There is a second operand. -/
def Instruction.hasSource (instruction : Instruction) : Bool := instruction.src != .none

/-- The destination behind the opcode. -/
def Instruction.destinationText (instruction : Instruction) : Str :=
  if instruction.hasDestination then " " ++ instruction.dst.toString else []

/-- The source behind the opcode and the destination. -/
def Instruction.sourceText (instruction : Instruction) : Str :=
  if instruction.hasSource then ", " ++ instruction.src.toString else []

/-- The text of an instruction, as listings show it. -/
def Instruction.toString (instruction : Instruction) : Str :=
  instruction.opcode.name ++ instruction.destinationText ++ instruction.sourceText

namespace Assembler

open CPU (TraceableOperand Traceable)

/-! ## Letter case -/

theorem toLower_of_not_alpha :
    ∀ ch, isAlpha (toLower ch) = false → toLower ch = ch := forall_byte (by decide +kernel)

theorem toUpper_toLower : ∀ ch, toUpper (toLower ch) = toUpper ch :=
  forall_byte (by decide +kernel)

/-- A text without letters has one letter case. -/
theorem eq_of_lowerCopy {text printed : Str} (h : lowerCopy text = lowerCopy printed)
    (hprinted : ∀ ch ∈ printed, isAlpha ch = false) : text = printed := by
  have hsame : ∀ ch, isAlpha ch = false → toLower ch = ch := forall_byte (by decide +kernel)
  induction printed generalizing text with
  | nil => exact List.map_eq_nil_iff.mp h
  | cons ch printed ih =>
    obtain ⟨hch, hrest⟩ := List.forall_mem_cons.mp hprinted
    obtain ⟨first, rest, rfl, hfirst, hlower⟩ := List.map_eq_cons_iff.mp h
    rw [hsame ch hch] at hfirst
    rw [ih hlower hrest, ← toLower_of_not_alpha first (hfirst ▸ hch), hfirst]

/-! ## Numbers -/

/-- A number has no letters. -/
theorem not_alpha_toStr (n : ℕ) : ∀ ch ∈ toStr n, isAlpha ch = false := by
  obtain ⟨first, rest, htext, -⟩ := exists_digits n
  have hdigit : ∀ value < 10, ∀ upper, isAlpha (digitChar value upper) = false := by decide
  rw [htext]
  intro ch hch
  obtain ⟨digit, -, rfl⟩ := List.mem_map.mp hch
  exact hdigit _ digit.value_lt _

/-- A signed number has no letters. -/
theorem not_alpha_intToStr (value : ℤ) : ∀ ch ∈ intToStr value, isAlpha ch = false := by
  rcases Int.lt_or_le value 0 with hneg | hnonneg
  · obtain ⟨n, rfl⟩ : ∃ n : ℕ, value = -n := ⟨value.natAbs, by omega⟩
    rw [intToStr_neg n (by omega)]
    exact List.forall_mem_cons.mpr ⟨by decide, not_alpha_toStr n⟩
  · obtain ⟨n, rfl⟩ := Int.eq_ofNat_of_zero_le hnonneg
    exact not_alpha_toStr n

/-- A signed number consists of literal characters. -/
theorem literalChar_intToStr (value : ℤ) : ∀ ch ∈ intToStr value, isLiteralChar ch = true := by
  obtain ⟨literal, htext, -⟩ := exists_literal value
  rw [← htext]
  exact literal.text_chars

/-- A signed number is not empty. -/
theorem intToStr_ne_nil (value : ℤ) : intToStr value ≠ [] := by
  obtain ⟨literal, htext, -⟩ := exists_literal value
  rw [← htext]
  exact literal.text_ne_nil

/-- Only a letter starts a register. -/
theorem not_registerToken {text : Str} (h : ∀ ch ∈ text, isAlpha ch = false) :
    isRegisterToken text = false := by
  have hletter : ∀ ch, isAlpha ch = false → (toUpper ch == 'R'.toUInt8) = false :=
    forall_byte (by decide +kernel)
  unfold isRegisterToken
  split
  · rw [hletter _ (h _ List.mem_cons_self)]
    rfl
  · rfl

/-- A memory address that is not negative as a signed word is read back from its digits. -/
theorem tryParseInteger_toStr {address : Word} (h : address.toNat < 2 ^ 63) :
    tryParseInteger (toStr address.toNat) = some address ∧ ¬ address.toInt < 0 := by
  have hint : address.toInt = address.toNat := BitVec.toInt_eq_toNat_of_lt (by omega)
  have hparse := tryParseInteger_intToStr address
  rw [hint] at hparse
  exact ⟨hparse, by omega⟩

/-! ## Operands -/

/-- The two characters of a register. -/
structure RegisterToken (text : Str) (reg : RegisterName) : Prop where
  isToken : isRegisterToken text = true
  digit : registerOfDigit (text.getD 1 0) = reg
  chars : ∀ ch ∈ text, isLiteralChar ch = true
  ne_nil : text ≠ []

/-- A register name in any case is a register token. -/
theorem registerToken_of_lowerCopy {text : Str} {reg : RegisterName}
    (h : lowerCopy text = lowerCopy (registerNameToString reg)) : RegisterToken text reg := by
  have hletter : ∀ ch, toLower ch = 'r'.toUInt8 → ch = 'R'.toUInt8 ∨ ch = 'r'.toUInt8 :=
    forall_byte (by decide +kernel)
  obtain ⟨digit, hname, hdigit⟩ : ∃ digit : UInt8,
      registerNameToString reg = ['R'.toUInt8, digit] ∧ isAlpha digit = false := by
    cases reg <;> exact ⟨_, rfl, rfl⟩
  rw [hname] at h
  obtain ⟨letter, rest, rfl, hfirst, hrest⟩ := List.map_eq_cons_iff.mp h
  obtain rfl := @eq_of_lowerCopy rest [digit] hrest
    (List.forall_mem_cons.mpr ⟨hdigit, nofun⟩)
  rcases hletter letter hfirst with rfl | rfl <;> cases reg <;> cases hname <;>
    exact ⟨by decide, by decide, by decide, by decide⟩

/-- The texts of an operand that the assembler reads. -/
inductive SpellsOperand : Str → Operand → Prop
  | register {text : Str} {reg : RegisterName} (h : RegisterToken text reg) :
      SpellsOperand text (.register reg)
  | immediate (value : Word) : SpellsOperand (intToStr value.toInt) (.immediate value)
  | memoryAddress {address : Word} (h : address.toNat < 2 ^ 63) :
      SpellsOperand ('['.toUInt8 :: (toStr address.toNat ++ [']'.toUInt8])) (.memoryAddress address)
  | registerIndirectAddress {text : Str} {reg : RegisterName} (h : RegisterToken text reg) :
      SpellsOperand ('['.toUInt8 :: (text ++ [']'.toUInt8])) (.registerIndirectAddress reg)

/-- A text in brackets, in another case, is still in brackets. -/
theorem brackets_of_lowerCopy {text inner : Str}
    (h : lowerCopy text = lowerCopy ("[" ++ inner ++ "]")) :
    ∃ inner', text = '['.toUInt8 :: (inner' ++ [']'.toUInt8]) ∧ lowerCopy inner' = lowerCopy inner := by
  unfold lowerCopy at h
  rw [List.map_append, List.map_append] at h
  obtain ⟨front, back, rfl, hfront, hback⟩ := List.map_eq_append_iff.mp h
  obtain ⟨opening, inner', rfl, hopening, hinner⟩ := List.map_eq_append_iff.mp hfront
  obtain rfl : opening = "[" := eq_of_lowerCopy hopening (by decide)
  obtain rfl : back = "]" := eq_of_lowerCopy hback (by decide)
  exact ⟨inner', rfl, hinner⟩

/-- What `Operand::toString` prints spells the operand, in any letter case. -/
theorem spellsOperand_of_lowerCopy {operand : Operand} {text : Str} (ht : TraceableOperand operand)
    (hne : operand ≠ .none) (h : lowerCopy text = lowerCopy operand.toString) :
    SpellsOperand text operand := by
  cases operand with
  | none => exact absurd rfl hne
  | register reg => exact .register (registerToken_of_lowerCopy h)
  | immediate value =>
    rw [eq_of_lowerCopy h (not_alpha_intToStr _)]
    exact .immediate value
  | memoryAddress address =>
    obtain ⟨inner, rfl, hinner⟩ := brackets_of_lowerCopy h
    rw [eq_of_lowerCopy hinner (not_alpha_toStr _)]
    exact .memoryAddress ht
  | registerIndirectAddress reg =>
    obtain ⟨inner, rfl, hinner⟩ := brackets_of_lowerCopy h
    exact .registerIndirectAddress (registerToken_of_lowerCopy hinner)
  | label name => exact ht.elim

theorem isLiteralChar_toStr (n : ℕ) : ∀ ch ∈ toStr n, isLiteralChar ch = true :=
  literalChar_intToStr n

/-- The characters of a printed operand. -/
def isOperandChar (ch : UInt8) : Bool := isLiteralChar ch || ch == '[' || ch == ']'

theorem operandChar_of_literalChar {text : Str} (h : ∀ ch ∈ text, isLiteralChar ch = true) :
    ∀ ch ∈ text, isOperandChar ch = true := fun ch hch => by
  rw [isOperandChar, h ch hch, Bool.true_or, Bool.true_or]

/-- A literal in brackets consists of operand characters. -/
theorem operandChar_brackets {inner : Str} (h : ∀ ch ∈ inner, isLiteralChar ch = true) :
    ∀ ch ∈ '['.toUInt8 :: (inner ++ [']'.toUInt8]), isOperandChar ch = true := by
  refine List.forall_mem_cons.mpr ⟨by decide, fun ch hch => ?_⟩
  rcases List.mem_append.mp hch with hch | hch
  · exact operandChar_of_literalChar h ch hch
  · rw [List.mem_singleton.mp hch]
    decide

/-- A literal character is no mark of the operand grammar. -/
theorem plain_of_literalChar {ch : UInt8} (h : isLiteralChar ch = true) : operandMarks.Plain ch := by
  have := ordinary_of_literalChar ch h
  simp only [isOrdinary, Bool.and_eq_true, bne_iff_ne] at this
  exact ⟨this.1.1.1, this.1.1.2⟩

theorem field_brackets {inner : Str} (h : ∀ ch ∈ inner, isLiteralChar ch = true) :
    operandMarks.Field ('['.toUInt8 :: (inner ++ [']'.toUInt8])) :=
  .group (m := operandMarks) (fun ch hch => plain_of_literalChar (h ch hch)) .nil

/-- The text in brackets is found. -/
theorem bracketed_brackets {inner : Str} (hne : inner ≠ []) :
    bracketed ('['.toUInt8 :: (inner ++ [']'.toUInt8])) = some inner := by
  have hlength := List.length_pos_iff.mpr hne
  unfold bracketed
  rw [if_pos, List.length_cons, List.length_append, List.length_singleton, List.drop_one,
    List.tail_cons, List.take_left' (by omega)]
  refine ⟨?_, rfl, ?_⟩
  · rw [List.length_cons, List.length_append, List.length_singleton]
    omega
  · rw [← List.cons_append, List.getLast?_concat]
    rfl

/-- A text in brackets is no register. -/
theorem not_registerToken_brackets (inner : Str) :
    isRegisterToken ('['.toUInt8 :: (inner ++ [']'.toUInt8])) = false := by
  unfold isRegisterToken
  split
  · rename_i heq
    rw [← (List.cons.inj heq).1]
    rfl
  · rfl

/-- Operand characters are not white space. -/
theorem solid_of_operandChar {text : Str} (h : ∀ ch ∈ text, isOperandChar ch = true) :
    Solid text := by
  have hspace : ∀ ch, isOperandChar ch = true → isSpace ch = false := forall_byte (by decide +kernel)
  exact fun ch hch => hspace ch (h ch hch)

namespace SpellsOperand

variable {text : Str} {operand : Operand}

/-- An operand consists of operand characters. -/
theorem chars (h : SpellsOperand text operand) : ∀ ch ∈ text, isOperandChar ch = true := by
  cases h with
  | register h => exact operandChar_of_literalChar h.chars
  | immediate value => exact operandChar_of_literalChar (literalChar_intToStr _)
  | memoryAddress => exact operandChar_brackets (isLiteralChar_toStr _)
  | registerIndirectAddress h => exact operandChar_brackets h.chars

theorem solid (h : SpellsOperand text operand) : Solid text := solid_of_operandChar h.chars

/-- An operand is not empty. -/
theorem ne_nil (h : SpellsOperand text operand) : text ≠ [] := by
  cases h with
  | register h => exact h.ne_nil
  | immediate value => exact intToStr_ne_nil _
  | memoryAddress => exact List.cons_ne_nil _ _
  | registerIndirectAddress => exact List.cons_ne_nil _ _

theorem not_blank (h : SpellsOperand text operand) : ¬ Blank text := by
  rw [← trim_eq_nil_iff, trim_of_trimmed h.solid.trimmed]
  exact h.ne_nil

/-- An operand is one field of the operand list. -/
theorem field (h : SpellsOperand text operand) : operandMarks.Field text := by
  cases h with
  | register h => exact field_of_ordinary fun ch hch => ordinary_of_literalChar ch (h.chars ch hch)
  | immediate value =>
    exact field_of_ordinary fun ch hch => ordinary_of_literalChar ch (literalChar_intToStr _ ch hch)
  | memoryAddress => exact field_brackets (isLiteralChar_toStr _)
  | registerIndirectAddress h => exact field_brackets h.chars

theorem parseRegister_token {reg : RegisterName} (h : RegisterToken text reg) (lineNumber : ℕ) :
    parseRegister text lineNumber = .ok reg := by
  rw [parseRegister, if_pos h.isToken, h.digit]

/-- A number is not in brackets. -/
theorem bracketed_intToStr (value : ℤ) : bracketed (intToStr value) = none := by
  unfold bracketed
  rw [if_neg]
  rintro ⟨-, hhead, -⟩
  have hchar := literalChar_intToStr value _ (List.mem_of_mem_head? hhead)
  exact absurd hchar (by decide)

/-- The assembler reads the operand that the text spells. -/
theorem parseOperand_eq (h : SpellsOperand text operand) (lineNumber : ℕ) (labels : LabelTable) :
    parseOperand text lineNumber labels = .ok operand := by
  unfold parseOperand
  rw [trim_of_trimmed h.solid.trimmed]
  dsimp only
  rw [reject_of_not h.ne_nil, ok_bind]
  -- Each form fails the tests of the forms before it: no number starts with a letter, no bracket is
  -- a register.
  cases h with
  | register h =>
    rw [if_pos h.isToken, parseRegister_token h]
    rfl
  | immediate value =>
    have htoken := not_registerToken (not_alpha_intToStr value.toInt)
    rw [if_neg (by rw [htoken]; exact Bool.false_ne_true), bracketed_intToStr,
      tryParseInteger_intToStr]
    rfl
  | @memoryAddress address h =>
    obtain ⟨hparse, hsign⟩ := tryParseInteger_toStr h
    have hinner := not_registerToken (not_alpha_toStr address.toNat)
    rw [if_neg (by rw [not_registerToken_brackets]; exact Bool.false_ne_true),
      bracketed_brackets (toStr_ne_nil _)]
    simp only
    rw [trim_of_trimmed (solid_of_operandChar
        (operandChar_of_literalChar (isLiteralChar_toStr _))).trimmed, parseMemoryOperand,
      reject_of_not (toStr_ne_nil _), ok_bind, hinner, if_neg Bool.false_ne_true, hparse]
    simp only
    rw [reject_of_not hsign]
    rfl
  | registerIndirectAddress h =>
    rw [if_neg (by rw [not_registerToken_brackets]; exact Bool.false_ne_true),
      bracketed_brackets h.ne_nil]
    simp only
    rw [trim_of_trimmed (solid_of_operandChar (operandChar_of_literalChar h.chars)).trimmed,
      parseMemoryOperand, reject_of_not h.ne_nil, ok_bind, if_pos h.isToken, parseRegister_token h]
    rfl

end SpellsOperand

/-! ## Instruction lines -/

/-- The word names the opcode. -/
structure NamesOpcode (text : Str) (opcode : Opcode) : Prop where
  read : opcodeFromString text = opcode
  valid : opcode ≠ .Invalid
  letters : ∀ ch ∈ text, isAlpha ch = true
  ne_nil : text ≠ []

theorem Opcode.name_letters (opcode : Opcode) :
    (∀ ch ∈ opcode.name, isAlpha ch = true) ∧ opcode.name ≠ [] := by
  cases opcode <;> decide

/-- The name of a valid opcode is recognised. -/
theorem opcodeFromString_name {opcode : Opcode} (hvalid : opcode ≠ .Invalid) :
    opcodeFromString opcode.name = opcode := by
  cases opcode with
  | Invalid => exact absurd rfl hvalid
  | _ => decide

/-- The name of an opcode in any case names it. -/
theorem namesOpcode_of_lowerCopy {text : Str} {opcode : Opcode} (hvalid : opcode ≠ .Invalid)
    (h : lowerCopy text = lowerCopy opcode.name) : NamesOpcode text opcode := by
  have hupper : text.map toUpper = opcode.name.map toUpper := by
    have := congrArg (List.map toUpper) h
    simp only [lowerCopy, List.map_map] at this
    rwa [show toUpper ∘ toLower = toUpper from funext toUpper_toLower] at this
  have hletter : ∀ ch, isAlpha (toLower ch) = isAlpha ch := forall_byte (by decide +kernel)
  obtain ⟨hletters, hne⟩ := Opcode.name_letters opcode
  refine ⟨?_, hvalid, fun ch hch => ?_, ?_⟩
  · rw [opcodeFromString, hupper]
    exact opcodeFromString_name hvalid
  · have hmem : toLower ch ∈ lowerCopy opcode.name := h ▸ List.mem_map_of_mem hch
    obtain ⟨letter, hmem, heq⟩ := List.mem_map.mp hmem
    rw [← hletter, ← heq, hletter, hletters letter hmem]
  · rintro rfl
    exact hne (List.map_eq_nil_iff.mp h.symm)

/-- The texts of an instruction that the assembler reads. -/
inductive SpellsInstruction : Str → Instruction → Prop
  | alone {name : Str} {opcode : Opcode} (hname : NamesOpcode name opcode) :
      SpellsInstruction name ⟨opcode, .none, .none⟩
  | one {name first : Str} {opcode : Opcode} {dst : Operand} (hname : NamesOpcode name opcode)
      (hdst : SpellsOperand first dst) :
      SpellsInstruction (name ++ ' '.toUInt8 :: first) ⟨opcode, dst, .none⟩
  | two {name first second : Str} {opcode : Opcode} {dst src : Operand}
      (hname : NamesOpcode name opcode) (hdst : SpellsOperand first dst)
      (hsrc : SpellsOperand second src) :
      SpellsInstruction (name ++ ' '.toUInt8 :: (first ++ ','.toUInt8 :: ' '.toUInt8 :: second))
        ⟨opcode, dst, src⟩

/-- Two texts that are equal up to case can be split at the same place. -/
theorem lowerCopy_append_eq {text front back : Str}
    (h : lowerCopy text = lowerCopy (front ++ back)) :
    ∃ front' back', text = front' ++ back' ∧ lowerCopy front' = lowerCopy front
      ∧ lowerCopy back' = lowerCopy back := by
  unfold lowerCopy at h
  rw [List.map_append] at h
  obtain ⟨front', back', rfl, hfront, hback⟩ := List.map_eq_append_iff.mp h
  exact ⟨front', back', rfl, hfront, hback⟩

/-- What `Instruction::toString` prints spells the instruction, in any letter case. -/
theorem spellsInstruction_of_lowerCopy {instruction : Instruction} {text : Str}
    (ht : Traceable instruction) (hvalid : instruction.opcode ≠ .Invalid)
    (h : lowerCopy text = lowerCopy instruction.toString) : SpellsInstruction text instruction := by
  obtain ⟨opcode, dst, src⟩ := instruction
  obtain ⟨front, third, rfl, hfront, hthird⟩ := lowerCopy_append_eq h
  obtain ⟨name, second, rfl, hname, hsecond⟩ := lowerCopy_append_eq hfront
  have hnames := namesOpcode_of_lowerCopy hvalid hname
  simp only [Instruction.destinationText, Instruction.sourceText, Instruction.hasDestination,
    Instruction.hasSource, bne_iff_ne, ite_not] at hsecond hthird
  -- No operand, one or two; the text in between has one spelling only.
  by_cases hdst : dst = .none
  · have hsrc : src = .none := by
      by_contra hne
      exact ht.dst_present hne hdst
    subst hdst hsrc
    obtain rfl := List.map_eq_nil_iff.mp hsecond
    obtain rfl := List.map_eq_nil_iff.mp hthird
    rw [List.append_nil, List.append_nil]
    exact .alone hnames
  · rw [if_neg hdst] at hsecond
    obtain ⟨gap, first, rfl, hgap, hfirst⟩ := lowerCopy_append_eq hsecond
    obtain rfl : gap = " " := eq_of_lowerCopy hgap (by decide)
    have hfirst := spellsOperand_of_lowerCopy ht.dst hdst hfirst
    by_cases hsrc : src = .none
    · subst hsrc
      obtain rfl := List.map_eq_nil_iff.mp hthird
      rw [List.append_nil]
      exact .one hnames hfirst
    · rw [if_neg hsrc] at hthird
      obtain ⟨comma, last, rfl, hcomma, hlast⟩ := lowerCopy_append_eq hthird
      obtain rfl : comma = ", " := eq_of_lowerCopy hcomma (by decide)
      have hlast := spellsOperand_of_lowerCopy ht.src hsrc hlast
      rw [List.append_assoc]
      exact .two hnames hfirst hlast

/-- A mnemonic has no white space. -/
theorem NamesOpcode.solid {name : Str} {opcode : Opcode} (h : NamesOpcode name opcode) :
    Solid name := by
  have hletter : ∀ ch, isAlpha ch = true → isSpace ch = false := forall_byte (by decide +kernel)
  exact fun ch hch => hletter ch (h.letters ch hch)

/-- The characters of a printed instruction. -/
def isLineChar (ch : UInt8) : Bool := isOperandChar ch || ch == ' ' || ch == ','

theorem lineChar_of_operandChar (ch : UInt8) : isOperandChar ch = true → isLineChar ch = true := by
  intro h
  rw [isLineChar, h, Bool.true_or, Bool.true_or]

/-- A mnemonic consists of characters of a line. -/
theorem NamesOpcode.chars {name : Str} {opcode : Opcode} (h : NamesOpcode name opcode) :
    ∀ ch ∈ name, isLineChar ch = true := by
  have hletter : ∀ ch, isAlpha ch = true → isLineChar ch = true := forall_byte (by decide +kernel)
  exact fun ch hch => hletter ch (h.letters ch hch)

namespace SpellsInstruction

variable {text : Str} {instruction : Instruction}

/-- An instruction consists of characters of a line. -/
theorem chars (h : SpellsInstruction text instruction) : ∀ ch ∈ text, isLineChar ch = true := by
  have hoperand : ∀ {first : Str} {operand : Operand}, SpellsOperand first operand →
      ∀ ch ∈ first, isLineChar ch = true :=
    fun h ch hch => lineChar_of_operandChar ch (h.chars ch hch)
  intro ch hch
  cases h with
  | alone hname => exact hname.chars ch hch
  | one hname hdst =>
    rcases List.mem_append.mp hch with hch | hch
    · exact hname.chars ch hch
    · exact (List.forall_mem_cons (p := fun ch => isLineChar ch = true)).mpr
        ⟨by decide, hoperand hdst⟩ ch hch
  | two hname hdst hsrc =>
    rcases List.mem_append.mp hch with hch | hch
    · exact hname.chars ch hch
    · rcases List.mem_cons.mp hch with rfl | hch
      · decide
      · rcases List.mem_append.mp hch with hch | hch
        · exact hoperand hdst ch hch
        · simp only [List.mem_cons] at hch
          obtain rfl | rfl | hch := hch
          · decide
          · decide
          · exact hoperand hsrc ch hch

/-- The text starts with a letter. -/
theorem head (h : SpellsInstruction text instruction) : ∃ ch rest, text = ch :: rest
    ∧ isAlpha ch = true := by
  have hname : ∀ {name : Str} {opcode : Opcode}, NamesOpcode name opcode → ∀ rest,
      ∃ ch tail, name ++ rest = ch :: tail ∧ isAlpha ch = true := by
    intro name opcode h rest
    obtain ⟨ch, tail, rfl⟩ := List.exists_cons_of_ne_nil h.ne_nil
    exact ⟨ch, tail ++ rest, rfl, h.letters ch List.mem_cons_self⟩
  cases h with
  | alone h => exact List.append_nil text ▸ hname h []
  | one h _ => exact hname h _
  | two h _ _ => exact hname h _

theorem ne_nil (h : SpellsInstruction text instruction) : text ≠ [] := by
  obtain ⟨ch, rest, rfl, -⟩ := h.head
  exact List.cons_ne_nil _ _

/-- A text ends as its solid last part ends. -/
theorem getLast_append {front back : Str} (hne : back ≠ []) (hsolid : Solid back) :
    ∀ ch ∈ (front ++ back).getLast?, isSpace ch = false := by
  intro ch hch
  rw [List.getLast?_append_of_ne_nil _ hne] at hch
  exact hsolid ch (List.mem_of_getLast? hch)

/-- An instruction has no white space around it. -/
theorem trimmed (h : SpellsInstruction text instruction) : Trimmed text := by
  have hletter : ∀ ch, isAlpha ch = true → isSpace ch = false := forall_byte (by decide +kernel)
  constructor
  · obtain ⟨ch, rest, rfl, hch⟩ := h.head
    intro first hfirst
    obtain rfl := Option.some.inj hfirst
    exact hletter ch hch
  · cases h with
    | alone hname => exact fun ch hch => hname.solid ch (List.mem_of_getLast? hch)
    | @one name first _ _ _ hdst =>
      rw [← List.singleton_append, ← List.append_assoc]
      exact getLast_append hdst.ne_nil hdst.solid
    | @two name first second _ _ _ _ _ hsrc =>
      rw [show name ++ ' '.toUInt8 :: (first ++ ','.toUInt8 :: ' '.toUInt8 :: second)
        = (name ++ ' '.toUInt8 :: (first ++ [','.toUInt8, ' '.toUInt8])) ++ second by simp]
      exact getLast_append hsrc.ne_nil hsrc.solid

/-- Neither a newline, a quote, a semicolon nor a colon. -/
theorem plain (h : SpellsInstruction text instruction) :
    10 ∉ text ∧ Unquoted text ∧ ':'.toUInt8 ∉ text := by
  have hchar : ∀ ch, isLineChar ch = true →
      ch ≠ 10 ∧ (ch ≠ '"'.toUInt8 ∧ ch ≠ ';'.toUInt8) ∧ ch ≠ ':'.toUInt8 :=
    forall_byte (by decide +kernel)
  have hall := fun ch hch => hchar ch (h.chars ch hch)
  exact ⟨fun hmem => (hall _ hmem).1 rfl, fun ch hch => (hall ch hch).2.1,
    fun hmem => (hall _ hmem).2.2 rfl⟩

theorem nextToken_name {name rest : Str} {opcode : Opcode} (h : NamesOpcode name opcode)
    (hrest : ∀ ch ∈ rest.head?, isSpace ch = true) : nextToken (name ++ rest) = (name, rest) :=
  @nextToken_append [] name rest .nil h.solid h.ne_nil hrest

/-- One operand is one field. -/
theorem fields_one {first : Str} {dst : Operand} (h : SpellsOperand first dst) :
    splitOperands first = .ok [first] := by
  rw [splitOperands_of_fields (fields_of_field h.field)
    (List.forall_mem_singleton.mpr h.not_blank), List.map_singleton,
    trim_of_trimmed h.solid.trimmed]

/-- Two operands are two fields. -/
theorem fields_two {first second : Str} {dst src : Operand} (hdst : SpellsOperand first dst)
    (hsrc : SpellsOperand second src) :
    splitOperands (first ++ ','.toUInt8 :: ' '.toUInt8 :: second) = .ok [first, second] := by
  have hgap : Blank [' '.toUInt8] := by decide
  have htrim : trim (' '.toUInt8 :: second) = second := by
    rw [← List.singleton_append, trim_blank_append hgap, trim_of_trimmed hsrc.solid.trimmed]
  have hfields : operandMarks.Fields (first ++ ','.toUInt8 :: ' '.toUInt8 :: second)
      [first, ' '.toUInt8 :: second] := by
    refine ⟨List.cons_ne_nil _ _, ?_, ?_⟩
    · rw [List.intercalate_cons_cons, List.intercalate_singleton, List.append_assoc]
      rfl
    · refine List.forall_mem_cons.mpr ⟨hdst.field, List.forall_mem_singleton.mpr ?_⟩
      exact .plain ⟨by decide, by decide⟩ (by decide) hsrc.field
  rw [splitOperands_of_fields hfields, List.map_cons, List.map_singleton, htrim,
    trim_of_trimmed hdst.solid.trimmed]
  refine List.forall_mem_cons.mpr ⟨hdst.not_blank, List.forall_mem_singleton.mpr ?_⟩
  rw [← trim_eq_nil_iff, htrim]
  exact hsrc.ne_nil

/-- The opcode is read ahead of the operand list. -/
theorem parseInstructionLine_operands {name tail : Str} {opcode : Opcode}
    (hname : NamesOpcode name opcode) (hline : 10 ∉ tail) (htail : Trimmed tail) (hne : tail ≠ [])
    (lineNumber : ℕ) (labels : LabelTable) :
    parseInstructionLine (name ++ ' '.toUInt8 :: tail) lineNumber labels
      = (do
        let operands ← splitOperands tail
        match operands with
        | [first] => do
            let dst ← parseOperand first lineNumber labels
            pure ⟨opcode, dst, .none⟩
        | [first, second] => do
            let dst ← parseOperand first lineNumber labels
            let src ← parseOperand second lineNumber labels
            pure ⟨opcode, dst, src⟩
        | _ => .error ("Too many operands at line " ++ toStr lineNumber ++ ": "
            ++ (name ++ ' '.toUInt8 :: tail))) := by
  have htoken := @nextToken_name name (' '.toUInt8 :: tail) _ hname fun ch hch =>
    Option.some.inj hch ▸ by decide
  have hrest : restOfLine (' '.toUInt8 :: tail) = ' '.toUInt8 :: tail := by
    refine restOfLine_of_no_newline fun hmem => ?_
    rcases List.mem_cons.mp hmem with heq | hmem
    · exact absurd heq (by decide)
    · exact hline hmem
  have hgap : Blank [' '.toUInt8] := by decide
  have htrim : trim (' '.toUInt8 :: tail) = tail := by
    rw [← List.singleton_append, trim_blank_append hgap, trim_of_trimmed htail]
  have hopcode : ¬ ¬ isValidOpcode (opcodeFromString name) = true := by
    rw [hname.read, isValidOpcode, bne_iff_ne, not_not]
    exact hname.valid
  unfold parseInstructionLine
  rw [htoken]
  dsimp only
  rw [reject_of_not hname.ne_nil, ok_bind, reject_of_not hopcode, ok_bind, hrest, htrim, hname.read]
  exact if_neg hne

/-- The assembler reads the instruction that the line spells. -/
theorem parseInstructionLine_eq (h : SpellsInstruction text instruction) (lineNumber : ℕ)
    (labels : LabelTable) :
    parseInstructionLine text lineNumber labels = .ok instruction := by
  have hline := h.plain.1
  cases h with
  | alone hname =>
    have htoken := @nextToken_name _ [] _ hname nofun
    have hopcode : ¬ ¬ isValidOpcode (opcodeFromString text) = true := by
      rw [hname.read, isValidOpcode, bne_iff_ne, not_not]
      exact hname.valid
    rw [List.append_nil] at htoken
    unfold parseInstructionLine
    rw [htoken]
    dsimp only
    rw [reject_of_not hname.ne_nil, ok_bind, reject_of_not hopcode, ok_bind, hname.read]
    rfl
  | @one name first opcode dst hname hdst =>
    have htail : 10 ∉ first := fun hmem =>
      hline (List.mem_append_right _ (List.mem_cons_of_mem _ hmem))
    rw [parseInstructionLine_operands hname htail hdst.solid.trimmed hdst.ne_nil, fields_one hdst,
      ok_bind]
    dsimp only
    rw [hdst.parseOperand_eq]
    rfl
  | @two name first second opcode dst src hname hdst hsrc =>
    have htail : 10 ∉ first ++ ','.toUInt8 :: ' '.toUInt8 :: second := fun hmem =>
      hline (List.mem_append_right _ (List.mem_cons_of_mem _ hmem))
    have htrimmed : Trimmed (first ++ ','.toUInt8 :: ' '.toUInt8 :: second) := by
      refine ⟨fun ch hch => ?_, ?_⟩
      · obtain ⟨letter, rest, rfl⟩ := List.exists_cons_of_ne_nil hdst.ne_nil
        exact Option.some.inj hch ▸ hdst.solid letter List.mem_cons_self
      · rw [show first ++ ','.toUInt8 :: ' '.toUInt8 :: second
          = (first ++ [','.toUInt8, ' '.toUInt8]) ++ second by simp]
        exact getLast_append hsrc.ne_nil hsrc.solid
    rw [parseInstructionLine_operands hname htail htrimmed
      (List.append_ne_nil_of_left_ne_nil hdst.ne_nil _), fields_two hdst hsrc, ok_bind]
    dsimp only
    rw [hdst.parseOperand_eq, ok_bind, hsrc.parseOperand_eq]
    rfl

end SpellsInstruction

end Assembler

end ZeroCpu
