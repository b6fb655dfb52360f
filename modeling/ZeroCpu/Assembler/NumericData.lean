import ZeroCpu.Assembler.Literals
import ZeroCpu.Assembler.Operands

/-!
# Numeric data directives

Reference: `src/assembler/Assembler.cpp` (`parseNumericDirective`, `parseDataDirective`).

A `.byte`, `.word` or `.qword` line as a list of integer literals, and which of these lines emit the
little-endian bytes of their values. The literals go through a signed parser, so `.qword` misses the
upper half of its range.
-/

namespace ZeroCpu.Assembler

open Library Binary

/-! ## Lines -/

/-- The directives for numbers. -/
inductive NumericDirective where
  | byte
  | word
  | qword
deriving DecidableEq

namespace NumericDirective

/-- The directive as it is written. -/
def name : NumericDirective → Str
  | .byte => ".byte"
  | .word => ".word"
  | .qword => ".qword"

/-- The bytes of a value. -/
def width : NumericDirective → ℕ
  | .byte => 1
  | .word => 2
  | .qword => 8

/-- The bounds that `parseDataDirective` passes on. -/
def minimum : NumericDirective → ℤ
  | .byte => -128
  | .word => -32768
  | .qword => int64Min

/-- The largest value that the directive declares. -/
def maximum : NumericDirective → ℕ
  | .byte => 255
  | .word => 65535
  | .qword => 2 ^ 64 - 1

/-- From the least signed to the greatest unsigned value of the width. -/
def InRange (directive : NumericDirective) (value : ℤ) : Prop :=
  -2 ^ (8 * directive.width - 1) ≤ value ∧ value ≤ 2 ^ (8 * directive.width) - 1

end NumericDirective

/-- White space within a line. -/
structure Gap (text : Str) : Prop where
  blank : Blank text
  no_newline : 10 ∉ text

theorem gap_nil : Gap [] := ⟨.nil, List.not_mem_nil⟩

theorem gap_space : Gap " " := ⟨by decide, by decide⟩

theorem space_ne_nil : (" " : Str) ≠ [] := nofun

/-- A literal and the white space around it. -/
structure Item where
  before : Str
  literal : Literal
  after : Str
  hbefore : Gap before
  hafter : Gap after

/-- An item as it is written. -/
def Item.text (item : Item) : Str := item.before ++ item.literal.text ++ item.after

/-- A numeric directive, in any letter case, and its list of literals. -/
structure NumericLine (directive : NumericDirective) where
  keyword : Str
  gap : Str
  items : List Item
  hkeyword : lowerCopy keyword = directive.name
  hgap : Gap gap
  hgap_ne_nil : gap ≠ []

namespace NumericLine

variable {directive : NumericDirective}

/-- The line as it is written. -/
def text (line : NumericLine directive) : Str :=
  line.keyword ++ line.gap ++ [','.toUInt8].intercalate (line.items.map Item.text)

/-- The numbers of the line. -/
def values (line : NumericLine directive) : List ℤ := line.items.map fun item => item.literal.value

end NumericLine

/-- The `width` little-endian bytes of a value modulo `2 ^ (8 * width)`. -/
def littleEndianBytes (width : ℕ) (value : ℤ) : List UInt8 :=
  (List.range width).map fun i => UInt8.ofNat ((value % 2 ^ (8 * width)).toNat / 2 ^ (8 * i))

/-- The line assembles exactly when its values are in range, and then to their bytes. -/
def AssemblesExactly {directive : NumericDirective} (line : NumericLine directive)
    (lineNumber : ℕ) : Prop :=
  ∀ bytes, parseDataDirective line.text lineNumber = .ok bytes ↔
    (∀ value ∈ line.values, directive.InRange value)
      ∧ bytes = line.values.flatMap (littleEndianBytes directive.width)

/-! ## The bytes of a value -/

/-- A byte of a word, as a digit of its value. -/
theorem toNat_leByte (value : ℤ) {width i : ℕ} (hi : i < width) (hwidth : width ≤ 8) :
    ((BitVec.ofInt 64 value >>> (8 * i)).setWidth 8).toNat
      = (value % 2 ^ (8 * width)).toNat / 2 ^ (8 * i) % 2 ^ 8 := by
  -- the value modulo `2 ^ 64` has the same low bytes
  have hword : (value % 2 ^ (8 * width)).toNat = (value % 2 ^ 64).toNat % 2 ^ (8 * width) := by
    have hdvd : (2 : ℤ) ^ (8 * width) ∣ 2 ^ 64 := pow_dvd_pow 2 (by omega)
    have hmod := Int.emod_emod_of_dvd value hdvd
    have hnonneg : 0 ≤ value % 2 ^ 64 := Int.emod_nonneg _ (by decide)
    rw [← hmod, Int.toNat_emod hnonneg (Int.pow_nonneg (by decide))]
    congr 1
  have hsplit : 2 ^ (8 * width) = 2 ^ (8 * i) * 2 ^ (8 * (width - i)) := by
    rw [← pow_add]
    congr 1
    omega
  have hbyte : 2 ^ 8 ∣ 2 ^ (8 * (width - i)) := pow_dvd_pow 2 (by omega)
  rw [BitVec.toNat_setWidth, BitVec.toNat_ushiftRight, BitVec.toNat_ofInt, Nat.shiftRight_eq_div_pow,
    hword, hsplit, Nat.mod_mul_right_div_self, Nat.mod_mod_of_dvd _ hbyte]
  rfl

/-- The bytes of a word are the little-endian digits of its value. -/
theorem leBytes_ofInt (value : ℤ) {width : ℕ} (hwidth : width ≤ 8) :
    leBytes width (BitVec.ofInt 64 value) = littleEndianBytes width value := by
  unfold leBytes littleEndianBytes
  refine List.map_congr_left fun i hi => UInt8.toNat_inj.mp ?_
  have hbyte := toNat_leByte value (List.mem_range.mp hi) hwidth
  rw [UInt8.toNat_ofNat']
  exact hbyte

/-! ## Reading the values -/

/-- The values that pass the checks of a numeric directive. -/
def Passes (minimum : ℤ) (maximum : ℕ) (value : ℤ) : Prop :=
  int64Min ≤ value ∧ value ≤ int64Max ∧ minimum ≤ value ∧ value ≤ maximum

/-- A literal is parsed exactly when it fits into a signed word. -/
theorem parseInteger_text {literal : Literal} {lineNumber : ℕ} {word : Word} :
    parseInteger literal.text lineNumber = .ok word
      ↔ (int64Min ≤ literal.value ∧ literal.value ≤ int64Max)
        ∧ word = BitVec.ofInt 64 literal.value := by
  unfold parseInteger
  rw [tryParseInteger_text]
  by_cases h : int64Min ≤ literal.value ∧ literal.value ≤ int64Max
  · rw [if_pos h]
    exact ⟨fun hok => ⟨h, (Except.ok.inj hok).symm⟩, fun heq => by rw [heq.2]⟩
  · rw [if_neg h]
    exact ⟨nofun, fun heq => absurd heq.1 h⟩

/-- The range check of `parseNumericDirective`, for a value that fits a signed word. -/
theorem range_check_iff {value minimum : ℤ} {maximum : ℕ} (hmin : int64Min ≤ value)
    (hmax : value ≤ int64Max) :
    ¬ ((BitVec.ofInt 64 value).toInt < minimum
        ∨ ((BitVec.ofInt 64 value).toInt ≥ 0 ∧ (BitVec.ofInt 64 value).toNat > maximum))
      ↔ minimum ≤ value ∧ value ≤ maximum := by
  unfold int64Min at hmin
  unfold int64Max at hmax
  have htoInt : (BitVec.ofInt 64 value).toInt = value := by
    rw [BitVec.toInt_ofInt]
    exact Int.bmod_eq_of_le (by omega) (by omega)
  rw [htoInt, BitVec.toNat_ofInt]
  omega

/-- The values are parsed exactly when each passes the check of the range. -/
theorem parseValues_texts {width maximum lineNumber : ℕ} {minimum : ℤ} (hwidth : width ≤ 8)
    (literals : List Literal) (bytes : List UInt8) :
    parseValues width minimum maximum lineNumber (literals.map Literal.text) = .ok bytes
      ↔ (∀ literal ∈ literals, Passes minimum maximum literal.value)
        ∧ bytes = literals.flatMap fun literal => littleEndianBytes width literal.value := by
  induction literals generalizing bytes with
  | nil =>
    rw [List.map_nil, parseValues, Except.ok.injEq, List.flatMap_nil, and_iff_right nofun]
    exact eq_comm
  | cons literal literals ih =>
    rw [List.map_cons, parseValues, List.forall_mem_cons, List.flatMap_cons]
    simp only [bind_eq_ok, parseInteger_text, reject_eq_ok, ih]
    constructor
    · rintro ⟨_, ⟨⟨hmin, hmax⟩, rfl⟩, _, hcheck, rest, ⟨hrest, rfl⟩, hbytes⟩
      obtain ⟨hlow, hhigh⟩ := (range_check_iff hmin hmax).mp hcheck
      refine ⟨⟨⟨hmin, hmax, hlow, hhigh⟩, hrest⟩, ?_⟩
      rw [← Except.ok.inj hbytes, leBytes_ofInt _ hwidth]
    · rintro ⟨⟨⟨hmin, hmax, hlow, hhigh⟩, hrest⟩, rfl⟩
      refine ⟨_, ⟨⟨hmin, hmax⟩, rfl⟩, (), (range_check_iff hmin hmax).mpr ⟨hlow, hhigh⟩, _, ⟨hrest, rfl⟩, ?_⟩
      rw [leBytes_ofInt _ hwidth]
      rfl

/-! ## Reading a line -/

/-- White space does not depend on the case. -/
theorem solid_of_lowerCopy {text : Str} (h : Solid (lowerCopy text)) : Solid text := by
  have hlower : ∀ ch, isSpace (toLower ch) = isSpace ch := forall_byte (by decide +kernel)
  intro ch hch
  rw [← hlower]
  exact h _ (List.mem_map_of_mem hch)

theorem NumericDirective.solid_name (directive : NumericDirective) : Solid directive.name := by
  unfold Solid
  cases directive <;> decide

theorem NumericDirective.name_ne_nil (directive : NumericDirective) : directive.name ≠ [] := by
  cases directive <;> decide

/-- A character within a line that is no mark of an operand list. -/
def isOrdinary (ch : UInt8) : Bool := ch != '[' && ch != ']' && ch != ',' && ch != '\n'

theorem ordinary_of_literalChar (ch : UInt8) : isLiteralChar ch = true → isOrdinary ch = true := by
  revert ch
  exact forall_byte (by decide +kernel)

/-- The characters of a gap are ordinary. -/
theorem Gap.ordinary {text : Str} (h : Gap text) : ∀ ch ∈ text, isOrdinary ch = true := by
  have hspace : ∀ ch, isSpace ch = true → ch ≠ 10 → isOrdinary ch = true :=
    forall_byte (by decide +kernel)
  exact fun ch hch => hspace ch (h.blank ch hch) fun heq => h.no_newline (heq ▸ hch)

/-- The characters of an item are ordinary. -/
theorem Item.ordinary (item : Item) : ∀ ch ∈ item.text, isOrdinary ch = true := by
  intro ch hch
  rcases List.mem_append.mp hch with hch | hch
  · rcases List.mem_append.mp hch with hch | hch
    · exact item.hbefore.ordinary ch hch
    · exact ordinary_of_literalChar ch (item.literal.text_chars ch hch)
  · exact item.hafter.ordinary ch hch

/-- Ordinary characters are one field. -/
theorem field_of_ordinary {text : Str} (h : ∀ ch ∈ text, isOrdinary ch = true) :
    operandMarks.Field text := by
  induction text with
  | nil => exact .nil
  | cons ch text ih =>
    obtain ⟨hch, hrest⟩ := List.forall_mem_cons.mp h
    simp only [isOrdinary, Bool.and_eq_true, bne_iff_ne] at hch
    obtain ⟨⟨⟨hopen, hclose⟩, hcomma⟩, -⟩ := hch
    exact .plain ⟨hopen, hclose⟩ hcomma (ih hrest)

theorem Item.trim_text (item : Item) : trim item.text = item.literal.text :=
  trim_surrounded item.hbefore.blank item.literal.solid.trimmed item.hafter.blank

theorem Item.not_blank (item : Item) : ¬ Blank item.text := by
  rw [← trim_eq_nil_iff, item.trim_text]
  exact item.literal.text_ne_nil

/-- The list of items is split into their literals. -/
theorem splitOperands_items (items : List Item) :
    splitOperands ([','.toUInt8].intercalate (items.map Item.text))
      = .ok (items.map fun item => item.literal.text) := by
  by_cases hne : items = []
  · rw [hne]
    rfl
  · have hfields : operandMarks.Fields ([','.toUInt8].intercalate (items.map Item.text))
        (items.map Item.text) := by
      refine ⟨mt List.map_eq_nil_iff.mp hne, rfl, fun field hfield => ?_⟩
      obtain ⟨item, -, rfl⟩ := List.mem_map.mp hfield
      exact field_of_ordinary item.ordinary
    rw [splitOperands_of_fields hfields, List.map_map]
    · exact congrArg Except.ok (List.map_congr_left fun item _ => item.trim_text)
    · intro field hfield
      obtain ⟨item, -, rfl⟩ := List.mem_map.mp hfield
      exact item.not_blank

namespace NumericLine

variable {directive : NumericDirective} (line : NumericLine directive)

/-- The keyword is the first token of the line. -/
theorem nextToken_text :
    nextToken line.text
      = (line.keyword, line.gap ++ [','.toUInt8].intercalate (line.items.map Item.text)) := by
  have hsolid : Solid line.keyword := by
    apply solid_of_lowerCopy
    rw [line.hkeyword]
    exact directive.solid_name
  have hne : line.keyword ≠ [] := by
    intro hnil
    have hname := line.hkeyword
    rw [hnil] at hname
    exact directive.name_ne_nil hname.symm
  rw [text, List.append_assoc]
  refine @nextToken_append [] _ _ .nil hsolid hne fun ch hch => ?_
  obtain ⟨first, rest, hgap⟩ := List.exists_cons_of_ne_nil line.hgap_ne_nil
  rw [hgap, List.cons_append, List.head?_cons] at hch
  obtain rfl := Option.some.inj hch
  exact line.hgap.blank _ (hgap ▸ List.mem_cons_self)

/-- The line has no line break. -/
theorem no_newline : 10 ∉ line.gap ++ [','.toUInt8].intercalate (line.items.map Item.text) := by
  intro h
  rcases List.mem_append.mp h with h | h
  · exact line.hgap.no_newline h
  · obtain h | ⟨field, hfield, hmem⟩ := Marks.mem_of_mem_intercalate h
    · exact absurd h (by decide)
    · obtain ⟨item, -, rfl⟩ := List.mem_map.mp hfield
      exact absurd (item.ordinary 10 hmem) (by decide)

/-- The arguments of the line are its literals. -/
theorem splitOperands_argumentsOf :
    splitOperands (argumentsOf line.text) = .ok (line.items.map fun item => item.literal.text) := by
  rw [argumentsOf, line.nextToken_text, restOfLine_of_no_newline line.no_newline,
    trim_blank_append line.hgap.blank, splitOperands_trim, splitOperands_items]

/-- The line is parsed by the range of its directive. -/
theorem parseDataDirective_text (lineNumber : ℕ) :
    parseDataDirective line.text lineNumber
      = parseNumericDirective (argumentsOf line.text) directive.width directive.minimum
          directive.maximum lineNumber := by
  have hname : lowerCopy (nextToken line.text).1 = directive.name := by
    rw [line.nextToken_text]
    exact line.hkeyword
  unfold parseDataDirective
  dsimp only
  rw [hname]
  cases directive <;> rfl

/-- What a numeric line needs to assemble. -/
theorem parseDataDirective_eq_ok_iff {lineNumber : ℕ} {bytes : List UInt8} :
    parseDataDirective line.text lineNumber = .ok bytes
      ↔ line.items ≠ [] ∧ line.items.length ≤ sizeMax / directive.width
        ∧ (∀ value ∈ line.values, Passes directive.minimum directive.maximum value)
        ∧ bytes = line.values.flatMap (littleEndianBytes directive.width) := by
  have hwidth : directive.width ≤ 8 := by cases directive <;> decide
  have hvalues := @parseValues_texts _ directive.maximum lineNumber directive.minimum hwidth
    (line.items.map Item.literal) bytes
  rw [List.map_map, List.flatMap_map, List.forall_mem_map] at hvalues
  rw [line.parseDataDirective_text, parseNumericDirective, line.splitOperands_argumentsOf, ok_bind]
  simp only [bind_eq_ok, reject_eq_ok, List.map_eq_nil_iff, List.length_map, Nat.not_lt, gt_iff_lt,
    values, List.forall_mem_map, List.flatMap_map]
  constructor
  · rintro ⟨_, hne, _, hlength, hbytes⟩
    exact ⟨hne, hlength, hvalues.mp hbytes⟩
  · rintro ⟨hne, hlength, hbytes⟩
    exact ⟨(), hne, (), hlength, hvalues.mpr hbytes⟩

end NumericLine

/-! ## The declared range -/

/-- A value passes the checks when it is in range, but for the upper half of the `.qword` range. -/
theorem passes_iff (directive : NumericDirective) (value : ℤ) :
    Passes directive.minimum directive.maximum value
      ↔ directive.InRange value ∧ ¬ (directive = .qword ∧ 2 ^ 63 ≤ value) := by
  unfold Passes NumericDirective.InRange int64Min int64Max
  cases directive <;>
    simp only [NumericDirective.minimum, NumericDirective.maximum, NumericDirective.width, int64Min] <;>
    norm_num <;> omega

/-- The lines in range that are rejected all the same: an empty list, a list too long for its size to
be computed, and a `.qword` of `2 ^ 63` or more. -/
def Refused {directive : NumericDirective} (line : NumericLine directive) : Prop :=
  (∀ value ∈ line.values, directive.InRange value)
    ∧ (line.items = [] ∨ line.items.length > sizeMax / directive.width
      ∨ (directive = .qword ∧ ∃ value ∈ line.values, 2 ^ 63 ≤ value))

/-- A refused line is not assembled as it should be. -/
theorem not_assemblesExactly_of_refused {directive : NumericDirective} {line : NumericLine directive}
    (h : Refused line) (lineNumber : ℕ) : ¬ AssemblesExactly line lineNumber := by
  obtain ⟨hrange, hrefused⟩ := h
  intro hexact
  obtain ⟨hne, hlength, hpasses, -⟩ :=
    line.parseDataDirective_eq_ok_iff.mp ((hexact _).mpr ⟨hrange, rfl⟩)
  rcases hrefused with hnil | hlong | ⟨hqword, value, hvalue, hbig⟩
  · exact hne hnil
  · exact absurd hlength (Nat.not_le.mpr hlong)
  · exact ((passes_iff directive value).mp (hpasses value hvalue)).2 ⟨hqword, hbig⟩

/-- Any other line is. -/
theorem assemblesExactly_of_not_refused {directive : NumericDirective}
    {line : NumericLine directive} (h : ¬ Refused line) (lineNumber : ℕ) :
    AssemblesExactly line lineNumber := by
  intro bytes
  rw [line.parseDataDirective_eq_ok_iff]
  constructor
  · rintro ⟨-, -, hpasses, rfl⟩
    exact ⟨fun value hvalue => ((passes_iff directive value).mp (hpasses value hvalue)).1, rfl⟩
  · rintro ⟨hrange, rfl⟩
    have hnot : ∀ {p : Prop}, (p → Refused line) → ¬ p := fun hp holds => h (hp holds)
    refine ⟨hnot fun hnil => ⟨hrange, .inl hnil⟩, ?_, fun value hvalue => ?_, rfl⟩
    · exact Nat.not_lt.mp (hnot fun hlong => ⟨hrange, .inr (.inl hlong)⟩)
    · refine (passes_iff directive value).mpr ⟨hrange value hvalue, hnot fun hbig => ?_⟩
      exact ⟨hrange, .inr (.inr ⟨hbig.1, value, hvalue, hbig.2⟩)⟩

/-- A numeric line accepts exactly its declared range and emits the bytes of its values, unless all
its values are in range and it is empty, too long, or a `.qword` line with a value from `2 ^ 63` on. -/
theorem numeric_directives_accept_range {directive : NumericDirective}
    (line : NumericLine directive) (lineNumber : ℕ) :
    AssemblesExactly line lineNumber ↔ ¬ Refused line :=
  ⟨fun h hrefused => not_assemblesExactly_of_refused hrefused lineNumber h,
    fun h => assemblesExactly_of_not_refused h lineNumber⟩

/-- `.qword 0x8000000000000000`. -/
def upperHalfLine : NumericLine .qword where
  keyword := ".qword"
  gap := " "
  items := [{
    before := []
    literal := ⟨.none, .hexadecimal false ⟨8, by decide, false⟩
      (List.replicate 15 ⟨0, by decide, false⟩)⟩
    after := []
    hbefore := gap_nil
    hafter := gap_nil }]
  hkeyword := by decide
  hgap := gap_space
  hgap_ne_nil := space_ne_nil

/-- The maximum of `.qword` is declared as 64 bits, and its upper half is refused. -/
theorem upper_half_rejected :
    upperHalfLine.text = Str.ofString ".qword 0x8000000000000000"
      ∧ ¬ AssemblesExactly upperHalfLine 1 := by
  refine ⟨by decide +kernel, not_assemblesExactly_of_refused ⟨?_, .inr (.inr ⟨rfl, ?_⟩)⟩ 1⟩
  · intro value hvalue
    obtain rfl := List.mem_singleton.mp hvalue
    exact ⟨by decide +kernel, by decide +kernel⟩
  · exact ⟨_, List.mem_singleton.mpr rfl, by decide +kernel⟩

end ZeroCpu.Assembler
