import ZeroCpu.Isa.Encoding
import ZeroCpu.Binary.Zbin

/-!
# Assembly text

Reference: `src/assembler/Assembler.cpp`, `src/isa/Opcode.cpp`.

The line-level functions of the assembler, over bytes. Character classes are those of the default
"C" locale.
-/

namespace ZeroCpu.Assembler

open Library Binary

/-! ## Characters -/

/-- The functions of `<cctype>` on bytes. -/
def isSpace (ch : UInt8) : Bool := ch == ' ' || (decide (9 ≤ ch) && decide (ch ≤ 13))
def isDigit (ch : UInt8) : Bool := decide (ch ≥ '0') && decide (ch ≤ '9')
def isUpper (ch : UInt8) : Bool := decide (ch ≥ 'A') && decide (ch ≤ 'Z')
def isLower (ch : UInt8) : Bool := decide (ch ≥ 'a') && decide (ch ≤ 'z')
def isAlpha (ch : UInt8) : Bool := isUpper ch || isLower ch
def isAlnum (ch : UInt8) : Bool := isAlpha ch || isDigit ch
def toLower (ch : UInt8) : UInt8 := if isUpper ch then ch + 32 else ch
def toUpper (ch : UInt8) : UInt8 := if isLower ch then ch - 32 else ch

/-! ## Strings -/

/-- The text without the spaces at its ends. -/
def trim (text : Str) : Str :=
  ((text.dropWhile isSpace).reverse.dropWhile isSpace).reverse

/-- The text in lower case. -/
def lowerCopy (text : Str) : Str := text.map toLower

/-- `std::getline` until the end of input; a last line without its newline still counts, an empty
rest does not. -/
def splitLinesFrom (current : Str) : Str → List Str
  | [] => if current = [] then [] else [current]
  | ch :: rest =>
      if ch = '\n' then current :: splitLinesFrom [] rest
      else splitLinesFrom (current ++ [ch]) rest

/-- The lines of a source, as `std::getline` gives them. -/
def splitLines (source : Str) : List Str := splitLinesFrom [] source

/-- The scan of `removeComment`: everything before the first `;` outside a string literal. -/
def removeCommentFrom (insideString escaped : Bool) : Str → Str
  | [] => []
  | ch :: rest =>
      if insideString then
        if escaped then ch :: removeCommentFrom true false rest
        else if ch = '\\' then ch :: removeCommentFrom true true rest
        else if ch = '"' then ch :: removeCommentFrom false false rest
        else ch :: removeCommentFrom true false rest
      else if ch = '"' then ch :: removeCommentFrom true escaped rest
      else if ch = ';' then []
      else ch :: removeCommentFrom false escaped rest

/-- The line up to the first `;` outside a string literal. -/
def removeComment (line : Str) : Str := removeCommentFrom false false line

/-- `input >> token`: skip white space, then read up to the next white space. -/
def nextToken (input : Str) : Str × Str :=
  (input.dropWhile isSpace).span fun ch => !isSpace ch

/-- `std::getline(input, text)` on the rest of a stream. -/
def restOfLine (input : Str) : Str := input.takeWhile fun ch => ch != '\n'

/-! ## Names -/

/-- The text is a register name in any case. -/
def isRegisterToken (text : Str) : Bool :=
  match text with
  | [first, digit] => toUpper first == 'R' && decide (digit ≥ '0') && decide (digit ≤ '7')
  | _ => false

/-- `static_cast<RegisterName>` of a digit below 8. -/
def registerOfDigit (digit : UInt8) : RegisterName :=
  RegisterName.all.getD (digit.toNat - '0'.toNat) .R0

/-- The register of a name; anything else throws. -/
def parseRegister (text : Str) (lineNumber : ℕ) : Except Str RegisterName :=
  if isRegisterToken text then .ok (registerOfDigit (text.getD 1 0))
  else .error ("Invalid register '" ++ text ++ "' at line " ++ toStr lineNumber)

/-- A letter or underscore, then letters, digits and underscores. -/
def isValidLabelName (text : Str) : Bool :=
  match text with
  | [] => false
  | first :: _ => (isAlpha first || first == '_') && text.all fun ch => isAlnum ch || ch == '_'

/-- The text is a directive's name. -/
def isReservedDirectiveName (text : Str) : Bool :=
  let lowered := lowerCopy text
  lowered == "text" || lowered == "data" || lowered == "byte" || lowered == "word"
    || lowered == "qword" || lowered == "string" || lowered == "entry"

/-- The opcodes a source line can name, in the order of the lookup table. -/
def opcodeTable : List Opcode :=
  [.MOV, .LOAD, .STORE, .ADD, .SUB, .MUL, .DIV, .AND, .OR, .XOR, .NOT, .CMP, .TEST, .JMP, .JE,
    .JNE, .JG, .JL, .PUSH, .POP, .CALL, .RET, .IRET, .EI, .DI, .INT, .NOP, .HALT]

/-- The opcode of a mnemonic. -/
def opcodeFromString (text : Str) : Opcode :=
  (opcodeTable.find? fun opcode => opcode.name == text.map toUpper).getD .Invalid

/-- `isValidOpcode`. -/
def isValidOpcode (opcode : Opcode) : Bool := opcode != .Invalid

/-- A label name is valid and names no register, opcode or directive. -/
def requireValidLabelName (text : Str) (lineNumber : ℕ) : Except Str Unit := do
  reject (¬ isValidLabelName text)
    ("Invalid label name '" ++ text ++ "' at line " ++ toStr lineNumber)
  reject (isRegisterToken text)
    ("Label name cannot be register name '" ++ text ++ "' at line " ++ toStr lineNumber)
  reject (isValidOpcode (opcodeFromString text))
    ("Label name cannot be opcode name '" ++ text ++ "' at line " ++ toStr lineNumber)
  reject (isReservedDirectiveName text)
    ("Label name cannot be directive name '" ++ text ++ "' at line " ++ toStr lineNumber)

/-- `tryConsumeLabel`: the label in front of the first colon, if it is one, and the line that is
left. The line is trimmed in either case. -/
def tryConsumeLabel (line : Str) : Option Str × Str :=
  let line := trim line
  match line.span fun (ch : UInt8) => ch != ':' with
  | (_, []) => (none, line)
  | (before, _ :: rest) =>
      let candidate := trim before
      if isValidLabelName candidate then (some candidate, trim rest) else (none, line)

/-! ## Integers -/

/-- The value of a digit in bases up to 16. -/
def digitValue (ch : UInt8) : Option ℕ :=
  if isDigit ch then some (ch.toNat - '0'.toNat)
  else if 'a'.toUInt8 ≤ toLower ch ∧ toLower ch ≤ 'f'.toUInt8 then
    some ((toLower ch).toNat - 'a'.toNat + 10)
  else none

/-- The value of a non-empty digit string that is valid in the base. -/
def parseDigits (base : ℕ) (digits : Str) : Option ℕ :=
  if digits = [] then none
  else digits.foldlM (fun value ch => do
    let digit ← digitValue ch
    if digit < base then some (value * base + digit) else none) 0

/-- The unsigned part of `std::stoll(text, &parsed, 0)` that consumes all of `text`: the base comes
from the prefix. -/
def parseMagnitude (text : Str) : Option ℕ :=
  match text with
  | 48 :: x :: rest => if toLower x == 'x' then parseDigits 16 rest else parseDigits 8 text
  | 48 :: _ => parseDigits 8 text
  | _ => parseDigits 10 text

/-- `tryParseInteger`: `std::stoll` with base 0 must consume all of the text and stay in range. -/
def tryParseInteger (text : Str) : Option Word :=
  let inRange (value : ℤ) : Option Word :=
    if int64Min ≤ value ∧ value ≤ int64Max then some (BitVec.ofInt 64 value) else none
  match text.dropWhile isSpace with
  | 45 :: digits => do
      let magnitude ← parseMagnitude digits
      inRange (-(magnitude : ℤ))
  | 43 :: digits => do
      let magnitude ← parseMagnitude digits
      inRange magnitude
  | digits => do
      let magnitude ← parseMagnitude digits
      inRange magnitude

/-- `std::stoll` of the whole text. -/
def parseInteger (text : Str) (lineNumber : ℕ) : Except Str Word :=
  match tryParseInteger text with
  | some value => .ok value
  | none => .error
      ("Invalid or out-of-range integer '" ++ text ++ "' at line " ++ toStr lineNumber)

/-! ## Operand lists and data directives -/

/-- The scan of `splitOperands`. -/
def splitOperandsFrom (operands : List Str) (current : Str) (insideMemoryAddress : Bool) :
    Str → Except Str (List Str)
  | [] =>
      if insideMemoryAddress then .error "Unclosed memory-address bracket"
      else
        let finalValue := trim current
        .ok (if finalValue = [] then operands else operands ++ [finalValue])
  | ch :: rest =>
      if ch = '[' then
        if insideMemoryAddress then .error "Nested memory address"
        else splitOperandsFrom operands (current ++ [ch]) true rest
      else if ch = ']' then
        if insideMemoryAddress then splitOperandsFrom operands (current ++ [ch]) false rest
        else .error "Unmatched memory-address bracket"
      else if ch = ',' ∧ ¬ insideMemoryAddress then
        let value := trim current
        if value = [] then .error "Empty comma-separated value"
        else splitOperandsFrom (operands ++ [value]) [] false rest
      else splitOperandsFrom operands (current ++ [ch]) insideMemoryAddress rest

/-- `Assembler::splitOperands`. -/
def splitOperands (text : Str) : Except Str (List Str) := splitOperandsFrom [] [] false text

/-- The byte of an escape sequence. -/
def escapeByte (ch : UInt8) : Option UInt8 :=
  if ch = 'n' then some '\n'
  else if ch = 'r' then some '\r'
  else if ch = 't' then some '\t'
  else if ch = '0' then some 0
  else if ch = '\\' then some '\\'
  else if ch = '"' then some '"'
  else none

/-- The scan of `parseStringLiteral` behind the opening quote. -/
def parseStringBody (lineNumber : ℕ) (result : List UInt8) : Str → Except Str (List UInt8)
  | [] => .error ("Unterminated string literal at line " ++ toStr lineNumber)
  | 34 :: rest =>
      if trim rest = [] then .ok result
      else .error ("Unexpected text after .string literal at line " ++ toStr lineNumber)
  | 92 :: [] => .error ("Incomplete string escape at line " ++ toStr lineNumber)
  | 92 :: ch :: rest =>
      match escapeByte ch with
      | some byte => parseStringBody lineNumber (result ++ [byte]) rest
      | none => .error ("Unsupported string escape at line " ++ toStr lineNumber)
  | ch :: rest => parseStringBody lineNumber (result ++ [ch]) rest

/-- The bytes between the quotes, escapes read. -/
def parseStringLiteral (text : Str) (lineNumber : ℕ) : Except Str (List UInt8) :=
  match trim text with
  | 34 :: body => parseStringBody lineNumber [] body
  | _ => .error (".string requires a quoted string at line " ++ toStr lineNumber)

/-- The values of a numeric directive, little-endian in `width` bytes each. -/
def parseValues (width : ℕ) (minimum : ℤ) (maximum lineNumber : ℕ) :
    List Str → Except Str (List UInt8)
  | [] => .ok []
  | valueText :: rest => do
      let value ← parseInteger valueText lineNumber
      reject (value.toInt < minimum ∨ (value.toInt ≥ 0 ∧ value.toNat > maximum))
        ("Data value out of range '" ++ valueText ++ "' at line " ++ toStr lineNumber)
      let bytes ← parseValues width minimum maximum lineNumber rest
      pure (leBytes width value ++ bytes)

/-- The values of a numeric directive, each in `width` bytes. -/
def parseNumericDirective (arguments : Str) (width : ℕ) (minimum : ℤ) (maximum lineNumber : ℕ) :
    Except Str (List UInt8) := do
  let values ← splitOperands arguments
  reject (values = [])
    ("Data directive requires at least one value at line " ++ toStr lineNumber)
  reject (values.length > sizeMax / width)
    ("Data directive size overflow at line " ++ toStr lineNumber)
  parseValues width minimum maximum lineNumber values

/-- The bytes of a data directive. -/
def parseDataDirective (line : Str) (lineNumber : ℕ) : Except Str (List UInt8) :=
  let (directive, rest) := nextToken line
  let arguments := trim (restOfLine rest)
  let lowered := lowerCopy directive
  if lowered = Str.ofString ".byte" then parseNumericDirective arguments 1 (-128) 255 lineNumber
  else if lowered = Str.ofString ".word" then
    parseNumericDirective arguments 2 (-32768) 65535 lineNumber
  else if lowered = Str.ofString ".qword" then
    parseNumericDirective arguments 8 int64Min (2 ^ 64 - 1) lineNumber
  else if lowered = Str.ofString ".string" then parseStringLiteral arguments lineNumber
  else .error ("Unknown data directive '" ++ directive ++ "' at line " ++ toStr lineNumber)

/-! ## Directives -/

/-- `AssemblySection`. -/
inductive AssemblySection where
  | Text
  | Data
deriving DecidableEq, Repr

/-- The line selects a section. -/
def isSectionDirective (line : Str) : Bool :=
  let lowered := lowerCopy (trim line)
  lowered == ".text" || lowered == ".data"

/-- The section a line selects. -/
def sectionFromDirective (line : Str) : AssemblySection :=
  if lowerCopy (trim line) = Str.ofString ".data" then .Data else .Text

/-- The line is an `.entry` directive. -/
def isEntryDirective (line : Str) : Bool :=
  lowerCopy (nextToken (trim line)).1 == ".entry"

/-- The label of an `.entry` directive. -/
def parseEntryDirective (line : Str) (lineNumber : ℕ) : Except Str Str := do
  let (directive, rest) := nextToken (trim line)
  let (label, rest) := nextToken rest
  let (extra, _) := nextToken rest
  reject (lowerCopy directive ≠ Str.ofString ".entry" ∨ label = [] ∨ extra ≠ [])
    (".entry requires exactly one code label at line " ++ toStr lineNumber)
  requireValidLabelName label lineNumber
  pure label

/-! ## Instruction lines -/

/-- The inner text of `[...]`, for an operand of at least three characters. -/
def bracketed (operand : Str) : Option Str :=
  if operand.length ≥ 3 ∧ operand.head? = some '[' ∧ operand.getLast? = some ']' then
    some ((operand.drop 1).take (operand.length - 2))
  else none

/-- The operand of `[inner]`. -/
def parseMemoryOperand (inner : Str) (lineNumber : ℕ) (dataLabels : LabelTable) :
    Except Str Operand := do
  reject (inner = []) ("Empty memory address at line " ++ toStr lineNumber)
  if isRegisterToken inner then
    let reg ← parseRegister inner lineNumber
    pure (.registerIndirectAddress reg)
  else match tryParseInteger inner with
    | some address => do
        reject (address.toInt < 0) ("Memory address cannot be negative at line " ++ toStr lineNumber)
        pure (.memoryAddress address)
    | none => do
        requireValidLabelName inner lineNumber
        match dataLabels.lookup inner with
        | some address => pure (.memoryAddress (Word.ofSize address))
        | none => .error ("Undefined data label '" ++ inner ++ "' at line " ++ toStr lineNumber)

/-- `Assembler::parseOperand`. -/
def parseOperand (text : Str) (lineNumber : ℕ) (dataLabels : LabelTable) : Except Str Operand := do
  let operand := trim text
  reject (operand = []) ("Empty operand at line " ++ toStr lineNumber)
  if isRegisterToken operand then
    let reg ← parseRegister operand lineNumber
    pure (.register reg)
  else match bracketed operand with
    | some inner => parseMemoryOperand (trim inner) lineNumber dataLabels
    | none =>
        match tryParseInteger operand with
        | some immediate => pure (.immediate immediate)
        | none => do
            requireValidLabelName operand lineNumber
            reject ((dataLabels.lookup operand).isSome)
              ("Data label '" ++ operand ++ "' must be used as [" ++ operand ++ "] at line "
                ++ toStr lineNumber)
            pure (.label operand)

/-- `Assembler::parseInstructionLine`. -/
def parseInstructionLine (line : Str) (lineNumber : ℕ) (dataLabels : LabelTable) :
    Except Str Instruction := do
  let (opcodeText, rest) := nextToken line
  reject (opcodeText = []) ("Missing opcode at line " ++ toStr lineNumber)
  let opcode := opcodeFromString opcodeText
  reject (¬ isValidOpcode opcode)
    ("Invalid opcode '" ++ opcodeText ++ "' at line " ++ toStr lineNumber)
  let operandText := trim (restOfLine rest)
  if operandText = [] then pure ⟨opcode, .none, .none⟩
  else do
    let operands ← splitOperands operandText
    match operands with
    | [first] => do
        let dst ← parseOperand first lineNumber dataLabels
        pure ⟨opcode, dst, .none⟩
    | [first, second] => do
        let dst ← parseOperand first lineNumber dataLabels
        let src ← parseOperand second lineNumber dataLabels
        pure ⟨opcode, dst, src⟩
    | _ => .error ("Too many operands at line " ++ toStr lineNumber ++ ": " ++ line)

end ZeroCpu.Assembler
