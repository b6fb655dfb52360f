import ZeroCpu.Debug.Symbols

/-!
# The symbol file round-trips

Reference: `src/debug/DebugSymbols.cpp`.

Symbols whose names are label names, whose names, addresses and lines are distinct and whose numbers
are `std::size_t`s are read back from the text that is written of them.
-/

namespace ZeroCpu.Debug

open Library Binary Assembler

namespace DebugSymbols

/-! ## Symbols in order of entry -/

/-- The symbols with these entries and locations. -/
def described (source_path : Str) (entries : List DebugSymbol)
    (source_locations : List DebugSourceLocation) : DebugSymbols where
  entries := entries
  indices := (entries.map DebugSymbol.name).zipIdx
  source_path := source_path
  source_locations := source_locations

variable {path : Str} {entries : List DebugSymbol} {locations : List DebugSourceLocation}

theorem has_described {name : Str} :
    (described path entries locations).has name = true ↔ name ∈ entries.map DebugSymbol.name := by
  rw [has, described, lookup_isSome_iff, List.zipIdx_map_fst]

/-- A new symbol is appended. -/
theorem add_described {kind : DebugSymbolKind} {name : Str} {address : ℕ}
    (hvalid : isValidLabelName name = true) (hnew : name ∉ entries.map DebugSymbol.name) :
    (described path entries locations).add kind name address
      = .ok (described path (entries ++ [⟨kind, name, address⟩]) locations) := by
  have hhas : ¬ (described path entries locations).has name = true := mt has_described.mp hnew
  have hname : ¬ ¬ isValidSymbolName name = true := not_not.mpr hvalid
  rw [add, reject_of_not hname, ok_bind, reject_of_not hhas, ok_bind]
  simp only [described, List.map_append, List.map_singleton, List.zipIdx_append, List.length_map,
    Nat.zero_add]
  rfl

/-- A new location passes the check for uniqueness. -/
theorem requireNewLocation_of_new {address line : ℕ}
    (haddress : address ∉ locations.map DebugSourceLocation.address)
    (hline : line ∉ locations.map DebugSourceLocation.line) :
    requireNewLocation address line locations = .ok () := by
  induction locations with
  | nil => rfl
  | cons existing rest ih =>
    rw [List.map_cons, List.mem_cons, not_or] at haddress hline
    rw [requireNewLocation, reject_of_not fun h => haddress.1 h.symm, ok_bind,
      reject_of_not fun h => hline.1 h.symm, ok_bind, ih haddress.2 hline.2]

/-- A new location is appended. -/
theorem addSourceLocation_described {address line : ℕ} (hpos : line ≠ 0)
    (haddress : address ∉ locations.map DebugSourceLocation.address)
    (hline : line ∉ locations.map DebugSourceLocation.line) :
    (described path entries locations).addSourceLocation address line
      = .ok (described path entries (locations ++ [⟨address, line⟩])) := by
  rw [addSourceLocation, reject_of_not hpos, ok_bind]
  show (requireNewLocation address line locations >>= _) = _
  rw [requireNewLocation_of_new haddress hline, ok_bind]
  rfl

/-! ## Lines -/

/-- The line of a symbol. -/
def symbolLine (symbol : DebugSymbol) : Str :=
  debugSymbolKindToString symbol.kind ++ (32 :: symbol.name) ++ (32 :: toStr symbol.address)

/-- The line of a location. -/
def locationLine (location : DebugSourceLocation) : Str :=
  Str.ofString "LINE" ++ (32 :: toStr location.address) ++ (32 :: toStr location.line)

/-- The line of the source path. -/
def sourceLine (path : Str) : Str := Str.ofString "SOURCE" ++ (32 :: quoted path)

/-- The lines of the file. -/
def fileLines (symbols : DebugSymbols) : List Str :=
  kHeader :: ((if symbols.source_path = [] then [] else [sourceLine symbols.source_path])
    ++ symbols.entries.map symbolLine ++ symbols.source_locations.map locationLine)

/-- The file is its lines. -/
theorem writeFile_eq (symbols : DebugSymbols) :
    symbols.writeFile = symbols.fileLines.flatMap fun line => line ++ [10] := by
  have hsymbol : symbolRecord = fun symbol => symbolLine symbol ++ [10] := by
    funext symbol
    simp only [symbolRecord, symbolLine, List.append_assoc, List.cons_append]
    rfl
  have hlocation : locationRecord = fun location => locationLine location ++ [10] := by
    funext location
    simp only [locationRecord, locationLine, List.append_assoc, List.cons_append]
    rfl
  simp only [writeFile, fileLines, List.flatMap_cons, List.flatMap_append, List.flatMap_map,
    hsymbol, hlocation]
  split_ifs with hpath
  · simp only [List.flatMap_nil, List.append_assoc]
    rfl
  · simp only [List.flatMap_cons, List.flatMap_nil, sourceLine, List.append_assoc, List.cons_append]
    rfl

/-- Lines without newlines are read back one by one. -/
theorem splitLines_flatMap {lines : List Str} (h : ∀ line ∈ lines, 10 ∉ line) :
    splitLines (lines.flatMap fun line => line ++ [10]) = lines := by
  induction lines with
  | nil => rfl
  | cons line rest ih =>
    rw [List.flatMap_cons, List.append_assoc, splitLines,
      splitLinesFrom_append (h line List.mem_cons_self), List.nil_append, List.singleton_append,
      splitLinesFrom, if_pos (show (10 : UInt8) = '\n'.toUInt8 by decide)]
    exact congrArg (line :: ·) (ih fun other hother => h other (List.mem_cons_of_mem _ hother))

/-! ## Tokens of a record -/

/-- A blank follows. -/
theorem head_cons_space (rest : Str) : ∀ ch ∈ ((32 :: rest : Str)).head?, isSpace ch = true := by
  intro ch hch
  obtain rfl := Option.some.inj hch
  decide

/-- A text without white space, by a check of each character. -/
theorem solid_of_all {text : Str} (h : text.all (fun ch => !isSpace ch) = true) : Solid text := by
  intro ch hch
  simpa using List.all_eq_true.mp h ch hch

theorem solid_toStr (n : ℕ) : Solid (toStr n) := fun ch hch =>
  not_space_of_literalChar ch (by rw [isLiteralChar, isAlnum_toStr n ch hch, Bool.true_or, Bool.true_or])

/-- A valid name is a token. -/
theorem solid_name {name : Str} (h : isValidLabelName name = true) : Solid name ∧ name ≠ [] := by
  cases name with
  | nil => cases h
  | cons first rest =>
    refine ⟨fun ch hch => ?_, List.cons_ne_nil _ _⟩
    have hall := List.all_eq_true.mp (Bool.and_eq_true_iff.mp h).2 ch hch
    revert hall
    exact forall_byte (p := fun ch => (isAlnum ch || ch == '_'.toUInt8) = true → isSpace ch = false)
      (by decide +kernel) ch

/-- The next token of a line, behind one blank. -/
theorem nextToken_cons {token rest : Str} (htoken : Solid token) (hne : token ≠ [])
    (hrest : ∀ ch ∈ rest.head?, isSpace ch = true) :
    nextToken (32 :: token ++ rest) = (token, rest) :=
  @nextToken_append [32] token rest (fun ch hch => by rw [List.mem_singleton.mp hch]; rfl) htoken
    hne hrest

/-- The last token of a line is taken. -/
theorem nextToken_last {token : Str} (htoken : Solid token) (hne : token ≠ []) :
    nextToken (32 :: token) = (token, []) := by
  have := @nextToken_cons token [] htoken hne nofun
  rwa [List.append_nil] at this

/-- An address is parsed as it was written. -/
theorem parseAddress_toStr {n : ℕ} (hle : n ≤ sizeMax) (lineNumber : ℕ) :
    parseAddress (toStr n) lineNumber = .ok n := by
  have hsign : ∀ ch : UInt8, isAlnum ch = false → (toStr n).head? ≠ some ch := by
    intro ch hch hhead
    exact absurd (isAlnum_toStr n ch (List.mem_of_mem_head? hhead)) (by rw [hch]; exact Bool.false_ne_true)
  have hempty : ¬ (toStr n = [] ∨ (toStr n).head? = some '-'.toUInt8) :=
    not_or.mpr ⟨toStr_ne_nil n, hsign _ (by decide)⟩
  have hplus : ¬ (toStr n).head? = some '+'.toUInt8 := hsign _ (by decide)
  simp only [parseAddress, if_neg hempty, if_neg hplus, parseDigits_toStr, if_neg (not_lt.mpr hle)]

/-- A source line is parsed as it was written. -/
theorem parseSourceLine_toStr {n : ℕ} (hle : n ≤ sizeMax) (hpos : n ≠ 0) (fileLineNumber : ℕ) :
    parseSourceLine (toStr n) fileLineNumber = .ok n := by
  rw [parseSourceLine, parseAddress_toStr hle, ok_bind, reject_of_not hpos, ok_bind]
  rfl

theorem parseKind_toString (kind : DebugSymbolKind) (lineNumber : ℕ) :
    parseKind (debugSymbolKindToString kind) lineNumber = .ok kind := by
  cases kind <;> rfl

theorem solid_kind (kind : DebugSymbolKind) :
    Solid (debugSymbolKindToString kind) ∧ debugSymbolKindToString kind ≠ [] := by
  cases kind <;> exact ⟨solid_of_all (by decide), by decide⟩

/-! ## Quoted paths -/

/-- A character that is no quote and no backslash stands for itself. -/
theorem quotedBody_cons {text rest : Str} {ch : UInt8} (hback : ch ≠ '\\'.toUInt8)
    (hquote : ch ≠ '"'.toUInt8) : quotedBody text (ch :: rest) = quotedBody (text ++ [ch]) rest := by
  rw [quotedBody.eq_def]
  split
  · next heq => cases heq
  · next heq => exact absurd (List.cons.inj heq).1 hquote
  · next heq => exact absurd (List.cons.inj heq).1 hback
  · next heq => exact absurd (List.cons.inj heq).1 hback
  · next heq =>
    obtain ⟨rfl, rfl⟩ := List.cons.inj heq
    rfl

/-- `std::quoted` reads back what it writes. -/
theorem quotedBody_quoted (text path : Str) :
    quotedBody text ((path.flatMap fun (ch : UInt8) =>
      if ch = '"' ∨ ch = '\\' then ['\\'.toUInt8, ch] else [ch]) ++ ['"'.toUInt8])
      = some (text ++ path, []) := by
  induction path generalizing text with
  | nil =>
    rw [List.append_nil]
    rfl
  | cons ch path ih =>
    rw [List.flatMap_cons, List.append_assoc]
    split_ifs with hescaped
    · change quotedBody (text ++ [ch]) ((path.flatMap _) ++ _) = _
      rw [ih, List.append_assoc, List.singleton_append]
    · rw [not_or] at hescaped
      rw [List.singleton_append, quotedBody_cons hescaped.2 hescaped.1, ih, List.append_assoc,
        List.singleton_append]

/-- A quoted path is read back. -/
theorem readQuoted_quoted (path : Str) : readQuoted (32 :: quoted path) = some (path, []) := by
  have hspace : (32 :: quoted path).dropWhile isSpace = quoted path := rfl
  rw [readQuoted, hspace]
  exact quotedBody_quoted [] path

/-- Quoting makes no line breaks. -/
theorem no_newline_quoted {path : Str} (h : 10 ∉ path) : 10 ∉ quoted path := by
  intro hmem
  rcases List.mem_cons.mp hmem with hmem | hmem
  · exact absurd hmem (by decide)
  rcases List.mem_append.mp hmem with hmem | hmem
  · obtain ⟨ch, hch, hmem⟩ := List.mem_flatMap.mp hmem
    split_ifs at hmem with hescaped
    · rcases List.mem_cons.mp hmem with hmem | hmem
      · exact absurd hmem (by decide)
      · exact h (List.mem_singleton.mp hmem ▸ hch)
    · exact h (List.mem_singleton.mp hmem ▸ hch)
  · exact absurd hmem (by decide)

/-! ## Records -/

/-- The line of the source path is read back. -/
theorem readRecord_sourceLine (path : Str) (lineNumber : ℕ) :
    readRecord false {} lineNumber (sourceLine path) = .ok (described path [] []) := by
  have htoken : nextToken (sourceLine path) = (Str.ofString "SOURCE", 32 :: quoted path) :=
    nextToken_append .nil (solid_of_all (by decide)) (by decide) (head_cons_space _)
  have hne : sourceLine path ≠ [] := List.cons_ne_nil _ _
  rw [readRecord, if_neg hne, htoken]
  show readSource {} lineNumber (32 :: quoted path) = _
  rw [readSource, readQuoted_quoted]
  rfl

/-- The line of a symbol is read back, after those before it. -/
theorem readRecord_symbolLine {symbol : DebugSymbol}
    (hname : isValidLabelName symbol.name = true) (hle : symbol.address ≤ sizeMax)
    (hnew : symbol.name ∉ entries.map DebugSymbol.name) (lineNumber : ℕ) :
    readRecord false (described path entries []) lineNumber (symbolLine symbol)
      = .ok (described path (entries ++ [symbol]) []) := by
  obtain ⟨hsolid, hname_ne⟩ := solid_name hname
  obtain ⟨hkind, hkind_ne⟩ := solid_kind symbol.kind
  have htype : nextToken (symbolLine symbol)
      = (debugSymbolKindToString symbol.kind, 32 :: symbol.name ++ (32 :: toStr symbol.address)) := by
    rw [symbolLine, List.append_assoc]
    exact nextToken_append .nil hkind hkind_ne (head_cons_space _)
  have hline : symbolLine symbol ≠ [] := by
    intro h
    rw [symbolLine, List.append_eq_nil_iff] at h
    exact List.cons_ne_nil _ _ h.2
  have hsource : (debugSymbolKindToString symbol.kind == Str.ofString "SOURCE") = false
      ∧ (debugSymbolKindToString symbol.kind == Str.ofString "LINE") = false := by
    cases symbol.kind <;> decide
  rw [readRecord, if_neg hline, htype]
  simp only [hsource.1, hsource.2, Bool.and_false, Bool.false_eq_true, if_false]
  rw [readSymbol, nextToken_cons hsolid hname_ne (head_cons_space _)]
  simp only [nextToken_last (solid_toStr _) (toStr_ne_nil _)]
  rw [reject_of_not, ok_bind, parseKind_toString, ok_bind, parseAddress_toStr hle, ok_bind]
  · exact add_described hname hnew
  · rintro (h | h | h)
    · exact hname_ne h
    · exact toStr_ne_nil _ h
    · exact h rfl

/-- The line of a location is read back, after those before it. -/
theorem readRecord_locationLine {location : DebugSourceLocation}
    (hle : location.address ≤ sizeMax) (hle' : location.line ≤ sizeMax) (hpos : location.line ≠ 0)
    (haddress : location.address ∉ locations.map DebugSourceLocation.address)
    (hline : location.line ∉ locations.map DebugSourceLocation.line) (lineNumber : ℕ) :
    readRecord false (described path entries locations) lineNumber (locationLine location)
      = .ok (described path entries (locations ++ [location])) := by
  have htype : nextToken (locationLine location)
      = (Str.ofString "LINE", 32 :: toStr location.address ++ (32 :: toStr location.line)) := by
    rw [locationLine, List.append_assoc]
    exact nextToken_append .nil (solid_of_all (by decide)) (by decide) (head_cons_space _)
  have hne : locationLine location ≠ [] := List.cons_ne_nil _ _
  rw [readRecord, if_neg hne, htype]
  show readLocation _ lineNumber _ = _
  rw [readLocation, nextToken_cons (solid_toStr _) (toStr_ne_nil _) (head_cons_space _)]
  simp only [nextToken_last (solid_toStr _) (toStr_ne_nil _)]
  rw [reject_of_not, ok_bind, parseAddress_toStr hle, ok_bind, parseSourceLine_toStr hle' hpos, ok_bind]
  · exact addSourceLocation_described hpos haddress hline
  · rintro (h | h | h)
    · exact toStr_ne_nil _ h
    · exact toStr_ne_nil _ h
    · exact h rfl

/-! ## The file -/

/-- Entries and locations that `add` and `addSourceLocation` take in, with numbers that fit. -/
structure Storable (entries : List DebugSymbol) (locations : List DebugSourceLocation) : Prop where
  name_valid : ∀ symbol ∈ entries, isValidLabelName symbol.name = true
  names_distinct : (entries.map DebugSymbol.name).Nodup
  address_le : ∀ symbol ∈ entries, symbol.address ≤ sizeMax
  line_pos : ∀ location ∈ locations, location.line ≠ 0
  addresses_distinct : (locations.map DebugSourceLocation.address).Nodup
  lines_distinct : (locations.map DebugSourceLocation.line).Nodup
  location_le : ∀ location ∈ locations, location.address ≤ sizeMax ∧ location.line ≤ sizeMax

/-- In a list without duplicates an entry is not among those before it. -/
theorem not_mem_of_nodup_append {α : Type} {before after : List α} {a : α}
    (h : (before ++ a :: after).Nodup) : a ∉ before := fun hmem =>
  (List.nodup_append.mp h).2.2 a hmem a List.mem_cons_self rfl

/-- The entries' records, read behind those already read. -/
theorem readRecords_symbols {done rest : List DebugSymbol} (h : Storable (done ++ rest) [])
    (lineNumber : ℕ) (tail : List Str) :
    readRecords false (described path done []) lineNumber (rest.map symbolLine ++ tail)
      = readRecords false (described path (done ++ rest) []) (lineNumber + rest.length) tail := by
  induction rest generalizing done lineNumber with
  | nil => rw [List.append_nil, List.map_nil, List.nil_append, List.length_nil, Nat.add_zero]
  | cons symbol rest ih =>
    have hmem : symbol ∈ done ++ symbol :: rest := List.mem_append_right _ List.mem_cons_self
    have hnew : symbol.name ∉ done.map DebugSymbol.name := by
      have hdistinct := h.names_distinct
      rw [List.map_append, List.map_cons] at hdistinct
      exact not_mem_of_nodup_append hdistinct
    have hsplit : done ++ symbol :: rest = done ++ [symbol] ++ rest := by
      rw [List.append_assoc, List.singleton_append]
    rw [List.map_cons, List.cons_append, readRecords,
      readRecord_symbolLine (h.name_valid symbol hmem) (h.address_le symbol hmem) hnew, ok_bind,
      ih (hsplit ▸ h), ← hsplit, List.length_cons, Nat.add_assoc, Nat.add_comm 1]

/-- The locations' records, read behind those already read. -/
theorem readRecords_locations {done rest : List DebugSourceLocation}
    (h : Storable entries (done ++ rest)) (lineNumber : ℕ) :
    readRecords false (described path entries done) lineNumber (rest.map locationLine)
      = .ok (described path entries (done ++ rest)) := by
  induction rest generalizing done lineNumber with
  | nil =>
    rw [List.append_nil]
    rfl
  | cons location rest ih =>
    have hmem : location ∈ done ++ location :: rest := List.mem_append_right _ List.mem_cons_self
    have haddress : location.address ∉ done.map DebugSourceLocation.address := by
      have hdistinct := h.addresses_distinct
      rw [List.map_append, List.map_cons] at hdistinct
      exact not_mem_of_nodup_append hdistinct
    have hline : location.line ∉ done.map DebugSourceLocation.line := by
      have hdistinct := h.lines_distinct
      rw [List.map_append, List.map_cons] at hdistinct
      exact not_mem_of_nodup_append hdistinct
    have hsplit : done ++ location :: rest = done ++ [location] ++ rest := by
      rw [List.append_assoc, List.singleton_append]
    obtain ⟨hle, hle'⟩ := h.location_le location hmem
    rw [List.map_cons, readRecords,
      readRecord_locationLine hle hle' (h.line_pos location hmem) haddress hline, ok_bind,
      ih (hsplit ▸ h), ← hsplit]

theorem no_newline_alnum {text : Str} (h : ∀ ch ∈ text, isAlnum ch = true) : 10 ∉ text :=
  fun hmem => absurd (h 10 hmem) (by decide)

theorem no_newline_cons {text : Str} (h : 10 ∉ text) : (10 : UInt8) ∉ 32 :: text :=
  fun hmem => (List.mem_cons.mp hmem).elim (by decide) h

theorem no_newline_name {name : Str} (h : isValidLabelName name = true) : 10 ∉ name :=
  fun hmem => absurd ((solid_name h).1 10 hmem) (by decide)

/-- No line of the file contains a newline. -/
theorem no_newline_fileLines (hpath : 10 ∉ path) (h : Storable entries locations) :
    ∀ line ∈ (described path entries locations).fileLines, 10 ∉ line := by
  have hnumber : ∀ n, (10 : UInt8) ∉ 32 :: toStr n := fun n =>
    no_newline_cons (no_newline_alnum (isAlnum_toStr n))
  intro line hline
  rcases List.mem_cons.mp hline with rfl | hline
  · decide
  rcases List.mem_append.mp hline with hline | hline
  · rcases List.mem_append.mp hline with hline | hline
    · split_ifs at hline
      · cases hline
      · obtain rfl := List.mem_singleton.mp hline
        rw [sourceLine, List.mem_append, not_or]
        exact ⟨by decide, no_newline_cons (no_newline_quoted hpath)⟩
    · obtain ⟨symbol, hsymbol, rfl⟩ := List.mem_map.mp hline
      rw [symbolLine, List.mem_append, List.mem_append, not_or, not_or]
      refine ⟨⟨?_, no_newline_cons (no_newline_name (h.name_valid symbol hsymbol))⟩, hnumber _⟩
      cases symbol.kind <;> decide
  · obtain ⟨location, -, rfl⟩ := List.mem_map.mp hline
    rw [locationLine, List.mem_append, List.mem_append, not_or, not_or]
    exact ⟨⟨by decide, hnumber _⟩, hnumber _⟩

/-- What is written is read back. -/
theorem readFile_writeFile (hpath : 10 ∉ path) (h : Storable entries locations) (file : Str) :
    readFile file (described path entries locations).writeFile
      = .ok (described path entries locations) := by
  have hentries : Storable ([] ++ entries) [] :=
    { h with
      line_pos := nofun
      addresses_distinct := .nil
      lines_distinct := .nil
      location_le := nofun }
  have hrecords : ∀ lineNumber, readRecords false (described path [] []) lineNumber
      (entries.map symbolLine ++ locations.map locationLine)
        = .ok (described path entries locations) := by
    intro lineNumber
    rw [readRecords_symbols hentries, List.nil_append]
    exact @readRecords_locations path entries [] locations h _
  rw [readFile, writeFile_eq, splitLines_flatMap (no_newline_fileLines hpath h)]
  simp only [fileLines]
  have hheader : (kHeader == kLegacyHeader) = false := by decide
  rw [hheader, reject_of_not (by simp), ok_bind]
  by_cases hempty : path = []
  · subst hempty
    simp only [described, if_true, List.nil_append]
    exact hrecords 1
  · have hsource : (described path entries locations).source_path = path := rfl
    rw [hsource, if_neg hempty, List.append_assoc, List.singleton_append, readRecords,
      readRecord_sourceLine, ok_bind]
    exact hrecords 2

end DebugSymbols

end ZeroCpu.Debug
