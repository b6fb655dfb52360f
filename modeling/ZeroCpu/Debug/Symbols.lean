import ZeroCpu.Assembler.Printing
import ZeroCpu.Assembler.Toolchain

/-!
# Debug symbols

Reference: `include/zero_cpu/debug/DebugSymbols.hpp`, `src/debug/DebugSymbols.cpp`.

The symbol file next to an executable: one record a line for the source path, the labels and the
lines that hold instructions. What `writeFile` writes is its text here, and `readFile` takes the text
of the file along with its path.
-/

namespace ZeroCpu.Debug

open Library Binary Assembler

/-- `DebugSymbolKind`. -/
inductive DebugSymbolKind where
  | Code
  | Data
deriving DecidableEq, Repr

/-- `DebugSymbol`. -/
structure DebugSymbol where
  kind : DebugSymbolKind
  name : Str
  address : ℕ
deriving DecidableEq

/-- `DebugSourceLocation`. -/
structure DebugSourceLocation where
  address : ℕ
  line : ℕ
deriving DecidableEq

/-- `DebugSymbols`. -/
structure DebugSymbols where
  entries : List DebugSymbol := []
  indices : LabelTable := []
  source_path : Str := []
  source_locations : List DebugSourceLocation := []
deriving DecidableEq

/-- `debugSymbolKindToString`. -/
def debugSymbolKindToString : DebugSymbolKind → Str
  | .Code => "CODE"
  | .Data => "DATA"

/-- The check of a label name, once more. -/
def isValidSymbolName (name : Str) : Bool :=
  match name with
  | [] => false
  | first :: _ => (isAlpha first || first == '_') && name.all fun ch => isAlnum ch || ch == '_'

namespace DebugSymbols

/-! ## Lookup -/

/-- `DebugSymbols::empty`. -/
def empty (symbols : DebugSymbols) : Bool := symbols.entries.isEmpty

/-- `DebugSymbols::has`. -/
def has (symbols : DebugSymbols) (name : Str) : Bool := (symbols.indices.lookup name).isSome

/-- The entry under a name. -/
def find (symbols : DebugSymbols) (name : Str) : Except Str DebugSymbol :=
  match symbols.indices.lookup name with
  | none => .error ("Unknown debug symbol: " ++ name)
  | some index =>
      match symbols.entries[index]? with
      | none => .error "vector::_M_range_check"
      | some symbol => .ok symbol

/-- `DebugSymbols::resolveCode`. -/
def resolveCode (symbols : DebugSymbols) (name : Str) : Except Str ℕ := do
  let symbol ← symbols.find name
  reject (symbol.kind ≠ .Code) ("Debug symbol is not a code label: " ++ name)
  pure symbol.address

/-- `DebugSymbols::resolveData`. -/
def resolveData (symbols : DebugSymbols) (name : Str) : Except Str ℕ := do
  let symbol ← symbols.find name
  reject (symbol.kind ≠ .Data) ("Debug symbol is not a data label: " ++ name)
  pure symbol.address

/-- `DebugSymbols::hasSourceLocations`. -/
def hasSourceLocations (symbols : DebugSymbols) : Bool := !symbols.source_locations.isEmpty

/-- `DebugSymbols::resolveSourceLine`. -/
def resolveSourceLine (symbols : DebugSymbols) (line : ℕ) : Except Str ℕ := do
  reject (line = 0) "Source line must be greater than zero"
  match symbols.source_locations.find? fun location => location.line == line with
  | some location => pure location.address
  | none => .error ("Unknown executable source line: " ++ toStr line)

/-- `DebugSymbols::sourceLineForAddress`. -/
def sourceLineForAddress (symbols : DebugSymbols) (address : ℕ) : Except Str ℕ :=
  match symbols.source_locations.find? fun location => location.address == address with
  | some location => .ok location.line
  | none => .error ("No source line for executable address: " ++ toStr address)

/-! ## Entry -/

/-- `DebugSymbols::add`. -/
def add (symbols : DebugSymbols) (kind : DebugSymbolKind) (name : Str) (address : ℕ) :
    Except Str DebugSymbols := do
  reject (¬ isValidSymbolName name) ("Invalid debug symbol name: " ++ name)
  reject (symbols.has name) ("Duplicate debug symbol: " ++ name)
  pure { symbols with
    indices := symbols.indices ++ [(name, symbols.entries.length)]
    entries := symbols.entries ++ [⟨kind, name, address⟩] }

/-- The scan of `addSourceLocation` for a location in the way. -/
def requireNewLocation (address line : ℕ) : List DebugSourceLocation → Except Str Unit
  | [] => .ok ()
  | existing :: rest => do
      reject (existing.address = address) ("Duplicate source address: " ++ toStr address)
      reject (existing.line = line) ("Duplicate executable source line: " ++ toStr line)
      requireNewLocation address line rest

/-- `DebugSymbols::addSourceLocation`. -/
def addSourceLocation (symbols : DebugSymbols) (address line : ℕ) : Except Str DebugSymbols := do
  reject (line = 0) "Source line must be greater than zero"
  requireNewLocation address line symbols.source_locations
  pure { symbols with source_locations := symbols.source_locations ++ [⟨address, line⟩] }

/-! ## From an assembled program -/

/-- The order of `std::pair<std::string, std::size_t>`. -/
def labelBefore (left right : Str × ℕ) : Bool :=
  decide (left.1 < right.1) || (left.1 == right.1 && decide (left.2 ≤ right.2))

/-- The entries of a label table in order. -/
def sortedLabels (labels : LabelTable) : LabelTable := labels.mergeSort labelBefore

/-- A code label, relocated by the code base. -/
def addCodeLabel (codeBase : ℕ) (symbols : DebugSymbols) (label : Str × ℕ) :
    Except Str DebugSymbols := do
  reject (label.2 > (sizeMax - codeBase) / kInstructionSize) "Code symbol address overflow"
  symbols.add .Code label.1 (codeBase + label.2 * kInstructionSize)

/-- The loop over the instructions' source lines, from instruction `index` on. -/
def addSourceLines (codeBase : ℕ) : ℕ → DebugSymbols → List ℕ → Except Str DebugSymbols
  | _, symbols, [] => .ok symbols
  | index, symbols, line :: rest => do
      reject (index > (sizeMax - codeBase) / kInstructionSize) "Source location address overflow"
      let symbols ← symbols.addSourceLocation (codeBase + index * kInstructionSize) line
      addSourceLines codeBase (index + 1) symbols rest

/-- `DebugSymbols::fromAssembledProgram`. -/
def fromAssembledProgram (program : AssembledProgram) (codeBase : ℕ) (sourcePath : Str) :
    Except Str DebugSymbols := do
  reject (program.instruction_source_lines ≠ []
      ∧ program.instruction_source_lines.length ≠ program.instructions.length)
    "Instruction source-line mapping size mismatch"
  let symbols ← (sortedLabels program.labels).foldlM (addCodeLabel codeBase)
    { source_path := sourcePath }
  let symbols ← (sortedLabels program.data_labels).foldlM
    (fun (symbols : DebugSymbols) label => symbols.add .Data label.1 label.2) symbols
  addSourceLines codeBase 0 symbols program.instruction_source_lines

/-! ## The file -/

/-- The first line of a symbol file; the legacy one has no locations. -/
def kHeader : Str := "ZCPU-SYMBOLS 2"
def kLegacyHeader : Str := "ZCPU-SYMBOLS 1"

/-- `output << std::quoted(text)`. -/
def quoted (text : Str) : Str :=
  '"'.toUInt8 ::
    (text.flatMap fun (ch : UInt8) => if ch = '"' ∨ ch = '\\' then ['\\'.toUInt8, ch] else [ch])
    ++ ['"'.toUInt8]

/-- The line of a symbol. -/
def symbolRecord (symbol : DebugSymbol) : Str :=
  debugSymbolKindToString symbol.kind ++ " " ++ symbol.name ++ " " ++ toStr symbol.address ++ "\n"

/-- The line of a location. -/
def locationRecord (location : DebugSourceLocation) : Str :=
  "LINE " ++ toStr location.address ++ " " ++ toStr location.line ++ "\n"

/-- The text `writeFile` writes. -/
def writeFile (symbols : DebugSymbols) : Str :=
  kHeader ++ Str.ofString "\n"
    ++ (if symbols.source_path = [] then []
      else Str.ofString "SOURCE " ++ quoted symbols.source_path ++ Str.ofString "\n")
    ++ symbols.entries.flatMap symbolRecord
    ++ symbols.source_locations.flatMap locationRecord

/-- The rest of `input >> std::quoted(text)` behind the opening quote. -/
def quotedBody (text : Str) : Str → Option (Str × Str)
  | [] => none
  | 34 :: rest => some (text, rest)
  | 92 :: [] => none
  | 92 :: ch :: rest => quotedBody (text ++ [ch]) rest
  | ch :: rest => quotedBody (text ++ [ch]) rest

/-- `input >> std::quoted(text)`; what does not start with a quote is read as a token. -/
def readQuoted (input : Str) : Option (Str × Str) :=
  match input.dropWhile isSpace with
  | [] => none
  | 34 :: body => quotedBody [] body
  | text => some (nextToken text)

/-- `parseAddress`, which is given a token. -/
def parseAddress (text : Str) (lineNumber : ℕ) : Except Str ℕ :=
  let invalid : Str := "Invalid symbol address at line " ++ toStr lineNumber
  if text = [] ∨ text.head? = some '-'.toUInt8 then .error invalid
  else
    match parseDigits 10 (if text.head? = some '+'.toUInt8 then text.tail else text) with
    | some value => if value > sizeMax then .error invalid else .ok value
    | none => .error invalid

/-- A line number from 1 on. -/
def parseSourceLine (text : Str) (fileLineNumber : ℕ) : Except Str ℕ := do
  let value ← parseAddress text fileLineNumber
  reject (value = 0) ("Source line must be greater than zero at line " ++ toStr fileLineNumber)
  pure value

/-- The kind of a record's name. -/
def parseKind (text : Str) (lineNumber : ℕ) : Except Str DebugSymbolKind :=
  if text = Str.ofString "CODE" then .ok .Code
  else if text = Str.ofString "DATA" then .ok .Data
  else .error ("Invalid symbol kind at line " ++ toStr lineNumber)

/-- A `SOURCE` record. -/
def readSource (symbols : DebugSymbols) (lineNumber : ℕ) (rest : Str) : Except Str DebugSymbols :=
  match readQuoted rest with
  | none => .error ("Malformed source path at line " ++ toStr lineNumber)
  | some (sourcePath, rest) => do
      reject ((nextToken rest).1 ≠ []) ("Malformed source path at line " ++ toStr lineNumber)
      reject (symbols.source_path ≠ []) ("Duplicate source path at line " ++ toStr lineNumber)
      pure { symbols with source_path := sourcePath }

/-- A `LINE` record. -/
def readLocation (symbols : DebugSymbols) (lineNumber : ℕ) (rest : Str) :
    Except Str DebugSymbols := do
  let (addressText, rest) := nextToken rest
  let (sourceLineText, rest) := nextToken rest
  let (extra, _) := nextToken rest
  reject (addressText = [] ∨ sourceLineText = [] ∨ extra ≠ [])
    ("Malformed source location at line " ++ toStr lineNumber)
  let address ← parseAddress addressText lineNumber
  let line ← parseSourceLine sourceLineText lineNumber
  symbols.addSourceLocation address line

/-- The record of a symbol. -/
def readSymbol (symbols : DebugSymbols) (recordType : Str) (lineNumber : ℕ) (rest : Str) :
    Except Str DebugSymbols := do
  let (name, rest) := nextToken rest
  let (addressText, rest) := nextToken rest
  let (extra, _) := nextToken rest
  reject (name = [] ∨ addressText = [] ∨ extra ≠ [])
    ("Malformed debug symbol at line " ++ toStr lineNumber)
  let kind ← parseKind recordType lineNumber
  let address ← parseAddress addressText lineNumber
  symbols.add kind name address

/-- One line of the file behind its header. -/
def readRecord (legacy : Bool) (symbols : DebugSymbols) (lineNumber : ℕ) (line : Str) :
    Except Str DebugSymbols :=
  if line = [] then .ok symbols
  else
    let (recordType, rest) := nextToken line
    if !legacy && recordType == "SOURCE" then symbols.readSource lineNumber rest
    else if !legacy && recordType == "LINE" then symbols.readLocation lineNumber rest
    else symbols.readSymbol recordType lineNumber rest

/-- The line loop of `readFile`; `lineNumber` is that of the line before. -/
def readRecords (legacy : Bool) : DebugSymbols → ℕ → List Str → Except Str DebugSymbols
  | symbols, _, [] => .ok symbols
  | symbols, lineNumber, line :: rest => do
      let symbols ← symbols.readRecord legacy (lineNumber + 1) line
      readRecords legacy symbols (lineNumber + 1) rest

/-- `readFile` on a file with the given text. -/
def readFile (path text : Str) : Except Str DebugSymbols :=
  match splitLines text with
  | [] => .error ("Invalid debug symbols header: " ++ path)
  | header :: lines => do
      let legacy := header == kLegacyHeader
      reject (!legacy ∧ header ≠ kHeader) ("Invalid debug symbols header: " ++ path)
      readRecords legacy {} 1 lines

end DebugSymbols

end ZeroCpu.Debug
