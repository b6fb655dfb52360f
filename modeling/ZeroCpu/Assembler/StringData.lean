import ZeroCpu.Assembler.NumericData
import ZeroCpu.Assembler.Passes

/-!
# String data

Reference: `src/assembler/Assembler.cpp` (`removeComment`, `tryConsumeLabel`, `parseStringLiteral`).

A `.string` line goes through three scanners, each with its own idea of where the string ends. They
agree on every line whose string is written with the escapes of the source, whatever the string holds.
-/

namespace ZeroCpu.Assembler

open Library Binary MemoryMap

/-! ## Lines -/

/-- A byte of a string, as it is written between the quotes. -/
def escapeChar (byte : UInt8) : Str :=
  if byte = '\\' then "\\\\"
  else if byte = '"' then "\\\""
  else if byte = '\n' then "\\n"
  else if byte = '\r' then "\\r"
  else if byte = '\t' then "\\t"
  else if byte = 0 then "\\0"
  else [byte]

/-- A content as it stands between quotes. -/
def escape (content : List UInt8) : Str := content.flatMap escapeChar

/-- A content as a string literal. -/
def quoted (content : List UInt8) : Str := '"'.toUInt8 :: (escape content ++ ['"'.toUInt8])

/-- The names a label may have. -/
structure IsLabelName (name : Str) : Prop where
  valid : isValidLabelName name = true
  not_register : isRegisterToken name = false
  not_opcode : isValidOpcode (opcodeFromString name) = false
  not_directive : isReservedDirectiveName name = false

/-- A label definition and the white space in it. -/
structure LabelDefinition where
  before : Str
  name : Str
  after : Str
  hbefore : Gap before
  hafter : Gap after
  hname : IsLabelName name

/-- A label definition as it stands in the line. -/
def LabelDefinition.text (label : LabelDefinition) : Str :=
  label.before ++ (label.name ++ label.after ++ [':'.toUInt8])

/-- A `.string` line with its labels and its comment. -/
structure StringLine where
  labels : List LabelDefinition
  before : Str
  keyword : Str
  gap : Str
  content : List UInt8
  after : Str
  comment : Option Str
  hbefore : Gap before
  hkeyword : lowerCopy keyword = Str.ofString ".string"
  hgap : Gap gap
  hgap_ne_nil : gap ≠ []
  hafter : Gap after
  hcomment : ∀ text ∈ comment, 10 ∉ text
  distinct : (labels.map LabelDefinition.name).Nodup

namespace StringLine

/-- The comment, when the line has one. -/
def commentText (line : StringLine) : Str :=
  match line.comment with
  | none => []
  | some text => ';'.toUInt8 :: text

/-- The directive and its string. -/
def statement (line : StringLine) : Str := line.keyword ++ line.gap ++ quoted line.content

/-- The labels the line defines. -/
def names (line : StringLine) : List Str := line.labels.map LabelDefinition.name

/-- The line as it stands in the source. -/
def text (line : StringLine) : Str :=
  line.labels.flatMap LabelDefinition.text ++ line.before ++ line.statement ++ line.after
    ++ line.commentText

end StringLine

/-! ## The literal -/

/-- What the three scanners need to know about a written byte. -/
theorem escapeChar_cases (byte : UInt8) :
    (∃ ch, escapeChar byte = ['\\'.toUInt8, ch] ∧ escapeByte ch = some byte ∧ ch ≠ 10)
      ∨ (escapeChar byte = [byte] ∧ byte ≠ '\\'.toUInt8 ∧ byte ≠ '"'.toUInt8 ∧ byte ≠ 10) := by
  unfold escapeChar
  split_ifs with hback hquote hnewline hreturn htab hnul
  · exact .inl ⟨'\\', rfl, by rw [hback]; rfl, by decide⟩
  · exact .inl ⟨'"', rfl, by rw [hquote]; rfl, by decide⟩
  · exact .inl ⟨'n', rfl, by rw [hnewline]; rfl, by decide⟩
  · exact .inl ⟨'r', rfl, by rw [hreturn]; rfl, by decide⟩
  · exact .inl ⟨'t', rfl, by rw [htab]; rfl, by decide⟩
  · exact .inl ⟨'0', rfl, by rw [hnul]; rfl, by decide⟩
  · exact .inr ⟨rfl, hback, hquote, hnewline⟩

theorem escape_cons (byte : UInt8) (content : List UInt8) :
    escape (byte :: content) = escapeChar byte ++ escape content := List.flatMap_cons

/-- An escaped content has no line break. -/
theorem no_newline_escape (content : List UInt8) : 10 ∉ escape content := by
  intro h
  obtain ⟨byte, -, hmem⟩ := List.mem_flatMap.mp h
  rcases escapeChar_cases byte with ⟨ch, heq, -, hch⟩ | ⟨heq, -, -, hbyte⟩
  · rw [heq, List.mem_cons, List.mem_singleton] at hmem
    exact hmem.elim (by decide) fun h => hch h.symm
  · rw [heq, List.mem_singleton] at hmem
    exact hbyte hmem.symm

/-- A byte that is no quote and no backslash stands for itself. -/
theorem parseStringBody_cons {lineNumber : ℕ} {result rest : List UInt8} {ch : UInt8}
    (hback : ch ≠ '\\'.toUInt8) (hquote : ch ≠ '"'.toUInt8) :
    parseStringBody lineNumber result (ch :: rest)
      = parseStringBody lineNumber (result ++ [ch]) rest := by
  rw [parseStringBody.eq_def]
  split
  · next heq => cases heq
  · next heq => exact absurd (List.cons.inj heq).1 hquote
  · next heq => exact absurd (List.cons.inj heq).1 hback
  · next heq => exact absurd (List.cons.inj heq).1 hback
  · next heq =>
    obtain ⟨rfl, rfl⟩ := List.cons.inj heq
    rfl

/-- A string literal has no line break. -/
theorem no_newline_quoted (content : List UInt8) : 10 ∉ quoted content := by
  intro h
  rcases List.mem_cons.mp h with h | h
  · exact absurd h (by decide)
  · rcases List.mem_append.mp h with h | h
    · exact no_newline_escape content h
    · exact absurd (List.mem_singleton.mp h) (by decide)

/-- A backslash and a known character stand for one byte. -/
theorem parseStringBody_escaped {lineNumber : ℕ} {result rest : List UInt8} {ch byte : UInt8}
    (h : escapeByte ch = some byte) :
    parseStringBody lineNumber result ('\\'.toUInt8 :: ch :: rest)
      = parseStringBody lineNumber (result ++ [byte]) rest := by
  show parseStringBody lineNumber result (92 :: ch :: rest) = _
  rw [parseStringBody, h]

/-- The literal parser reads the written bytes back. -/
theorem parseStringBody_escape (lineNumber : ℕ) (result content : List UInt8) :
    parseStringBody lineNumber result (escape content ++ ['"'.toUInt8]) = .ok (result ++ content) := by
  induction content generalizing result with
  | nil =>
    rw [List.append_nil]
    rfl
  | cons byte content ih =>
    rw [escape_cons, List.append_assoc]
    rcases escapeChar_cases byte with ⟨ch, heq, hbyte, -⟩ | ⟨heq, hback, hquote, -⟩
    · rw [heq, List.cons_append, List.singleton_append, parseStringBody_escaped hbyte, ih,
        List.append_assoc, List.singleton_append]
    · rw [heq, List.singleton_append, parseStringBody_cons hback hquote, ih, List.append_assoc,
        List.singleton_append]

theorem getLast_quoted (content : List UInt8) : (quoted content).getLast? = some '"'.toUInt8 := by
  rw [quoted, ← List.cons_append, List.getLast?_append, List.getLast?_singleton, Option.some_or]

/-- A string literal has no white space around it. -/
theorem trimmed_quoted (content : List UInt8) : Trimmed (quoted content) := by
  refine ⟨fun ch hch => ?_, fun ch hch => ?_⟩
  · obtain rfl := Option.some.inj hch
    decide
  · rw [getLast_quoted] at hch
    obtain rfl := Option.some.inj hch
    decide

/-- A string literal is parsed as its content. -/
theorem parseStringLiteral_quoted (content : List UInt8) (lineNumber : ℕ) :
    parseStringLiteral (quoted content) lineNumber = .ok content := by
  unfold parseStringLiteral
  rw [trim_of_trimmed (trimmed_quoted content)]
  exact parseStringBody_escape lineNumber [] content

/-! ## The comment -/

/-- Text that `removeComment` copies outside a string. -/
def Unquoted (text : Str) : Prop := ∀ ch ∈ text, ch ≠ '"'.toUInt8 ∧ ch ≠ ';'.toUInt8

theorem Unquoted.append {text rest : Str} (h : Unquoted text) (hrest : Unquoted rest) :
    Unquoted (text ++ rest) := fun ch hch => (List.mem_append.mp hch).elim (h ch) (hrest ch)

/-- A text without quotes and comment marks is kept. -/
theorem removeCommentFrom_unquoted {text : Str} (h : Unquoted text) (escaped : Bool) (rest : Str) :
    removeCommentFrom false escaped (text ++ rest)
      = text ++ removeCommentFrom false escaped rest := by
  induction text with
  | nil => rfl
  | cons ch text ih =>
    obtain ⟨⟨hquote, hsemicolon⟩, htext⟩ := List.forall_mem_cons.mp h
    rw [List.cons_append, removeCommentFrom, if_neg Bool.false_ne_true, if_neg hquote,
      if_neg hsemicolon, ih htext, List.cons_append]

/-- Behind the written bytes, `removeComment` is inside the string and no backslash is open. -/
theorem removeCommentFrom_escape (content : List UInt8) (rest : Str) :
    removeCommentFrom true false (escape content ++ rest)
      = escape content ++ removeCommentFrom true false rest := by
  induction content with
  | nil => rfl
  | cons byte content ih =>
    rw [escape_cons, List.append_assoc, List.append_assoc]
    rcases escapeChar_cases byte with ⟨ch, heq, -, -⟩ | ⟨heq, hback, hquote, -⟩
    · rw [heq, List.cons_append, List.singleton_append, List.cons_append, List.singleton_append,
        ← ih, removeCommentFrom, if_pos rfl, if_neg Bool.false_ne_true, if_pos rfl,
        removeCommentFrom, if_pos rfl, if_pos rfl]
    · rw [heq, List.singleton_append, List.singleton_append, ← ih, removeCommentFrom, if_pos rfl,
        if_neg Bool.false_ne_true, if_neg hback, if_neg hquote]

/-- A string literal is kept, whatever is in it. -/
theorem removeCommentFrom_quoted (content : List UInt8) (rest : Str) :
    removeCommentFrom false false (quoted content ++ rest)
      = quoted content ++ removeCommentFrom false false rest := by
  rw [quoted, List.cons_append, List.append_assoc, removeCommentFrom, if_neg Bool.false_ne_true,
    if_pos rfl, removeCommentFrom_escape, List.singleton_append, removeCommentFrom, if_pos rfl,
    if_neg Bool.false_ne_true, if_neg (by decide), if_pos rfl, List.cons_append, List.append_assoc,
    List.singleton_append]

theorem Gap.unquoted {text : Str} (h : Gap text) : Unquoted text := fun ch hch =>
  ⟨ne_of_space (h.blank ch hch) (by decide), ne_of_space (h.blank ch hch) (by decide)⟩

/-- The characters of a label name. -/
theorem IsLabelName.chars {name : Str} (h : IsLabelName name) :
    ∀ ch ∈ name, (isAlnum ch || ch == '_') = true := by
  have hvalid := h.valid
  unfold isValidLabelName at hvalid
  cases name with
  | nil => cases hvalid
  | cons first rest =>
    rw [Bool.and_eq_true] at hvalid
    exact List.all_eq_true.mp hvalid.2

theorem IsLabelName.ne_nil {name : Str} (h : IsLabelName name) : name ≠ [] := by
  rintro rfl
  exact Bool.false_ne_true h.valid

/-- What a letter, digit or underscore is not. -/
theorem label_char (ch : UInt8) : (isAlnum ch || ch == '_') = true →
    isSpace ch = false ∧ ch ≠ '"'.toUInt8 ∧ ch ≠ ';'.toUInt8 ∧ ch ≠ ':'.toUInt8 ∧ ch ≠ 10 := by
  revert ch
  exact forall_byte (by decide +kernel)

/-- A label definition has no quotes. -/
theorem LabelDefinition.unquoted (label : LabelDefinition) : Unquoted label.text := by
  refine label.hbefore.unquoted.append ((Unquoted.append ?_ label.hafter.unquoted).append ?_)
  · exact fun ch hch =>
      have hlabel := label_char ch (label.hname.chars ch hch)
      ⟨hlabel.2.1, hlabel.2.2.1⟩
  · intro ch hch
    obtain rfl := List.mem_singleton.mp hch
    decide

/-- Label definitions have no quotes. -/
theorem unquoted_labels (labels : List LabelDefinition) :
    Unquoted (labels.flatMap LabelDefinition.text) := by
  intro ch hch
  obtain ⟨label, -, hmem⟩ := List.mem_flatMap.mp hch
  exact label.unquoted ch hmem

namespace StringLine

variable (line : StringLine)

/-- What a character of the keyword is, up to its case. -/
theorem keyword_char (ch : UInt8) (hch : ch ∈ line.keyword) :
    isSpace ch = false ∧ ch ≠ '"'.toUInt8 ∧ ch ≠ ';'.toUInt8 ∧ ch ≠ ':'.toUInt8 ∧ ch ≠ 10 := by
  have hall : ∀ ch : UInt8, toLower ch ∈ Str.ofString ".string" →
      isSpace ch = false ∧ ch ≠ '"'.toUInt8 ∧ ch ≠ ';'.toUInt8 ∧ ch ≠ ':'.toUInt8 ∧ ch ≠ 10 :=
    forall_byte (by decide +kernel)
  apply hall
  rw [← line.hkeyword]
  exact List.mem_map_of_mem hch

theorem unquoted_keyword : Unquoted line.keyword := fun ch hch =>
  have hchar := line.keyword_char ch hch
  ⟨hchar.2.1, hchar.2.2.1⟩

/-- The comment is cut off, and nothing else. -/
theorem removeComment_text :
    removeComment line.text = line.labels.flatMap LabelDefinition.text ++ line.before
      ++ line.statement ++ line.after := by
  have hcomment : removeCommentFrom false false line.commentText = [] := by
    unfold commentText
    cases line.comment with
    | none => rfl
    | some text => rfl
  unfold removeComment text statement
  simp only [List.append_assoc]
  rw [removeCommentFrom_unquoted (unquoted_labels _), removeCommentFrom_unquoted line.hbefore.unquoted,
    removeCommentFrom_unquoted line.unquoted_keyword, removeCommentFrom_unquoted line.hgap.unquoted,
    removeCommentFrom_quoted, removeCommentFrom_unquoted line.hafter.unquoted, hcomment, List.append_nil]

end StringLine

/-! ## The labels -/

/-- A statement that the label loop leaves alone. -/
structure Unlabeled (stmt : Str) : Prop where
  trimmed : Trimmed stmt
  ne_nil : stmt ≠ []
  no_label : tryConsumeLabel stmt = (none, stmt)

/-- The labels in front of a statement. -/
def labeled (labels : List LabelDefinition) (before stmt : Str) : Str :=
  labels.flatMap LabelDefinition.text ++ (before ++ stmt)

/-- A line with its labels, split at the first. -/
theorem labeled_cons (label : LabelDefinition) (labels : List LabelDefinition) (before stmt : Str) :
    labeled (label :: labels) before stmt
      = label.before ++ (label.name ++ label.after ++ ':'.toUInt8 :: labeled labels before stmt) := by
  unfold labeled LabelDefinition.text
  rw [List.flatMap_cons]
  simp only [List.append_assoc, List.cons_append, List.nil_append]

/-- Labels do not change how the line ends. -/
theorem getLast_labeled (labels : List LabelDefinition) (before : Str) {stmt : Str}
    (hne : stmt ≠ []) : (labeled labels before stmt).getLast? = stmt.getLast? := by
  unfold labeled
  rw [← List.append_assoc, List.getLast?_append]
  cases h : stmt.getLast? with
  | none => exact absurd (List.getLast?_eq_none_iff.mp h) hne
  | some ch => rfl

/-- Without labels only white space is trimmed. -/
theorem trim_labeled_nil {before stmt : Str} (hbefore : Gap before) (hstmt : Unlabeled stmt) :
    trim (labeled [] before stmt) = stmt := by
  have := trim_surrounded hbefore.blank hstmt.trimmed .nil
  rwa [List.append_nil] at this

theorem IsLabelName.solid {name : Str} (h : IsLabelName name) : Solid name := fun ch hch =>
  (label_char ch (h.chars ch hch)).1

/-- Trimming leaves the first label in front. -/
theorem trim_labeled_cons (label : LabelDefinition) (labels : List LabelDefinition) (before : Str)
    {stmt : Str} (hstmt : Unlabeled stmt) :
    trim (labeled (label :: labels) before stmt)
      = label.name ++ label.after ++ ':'.toUInt8 :: labeled labels before stmt := by
  rw [labeled_cons, trim_blank_append label.hbefore.blank]
  refine trim_of_trimmed ⟨fun ch hch => ?_, fun ch hch => ?_⟩
  · obtain ⟨first, rest, heq⟩ := List.exists_cons_of_ne_nil label.hname.ne_nil
    rw [heq, List.cons_append, List.cons_append, List.head?_cons] at hch
    obtain rfl := Option.some.inj hch
    exact label.hname.solid first (heq ▸ List.mem_cons_self)
  · have hlast := List.getLast?_eq_some_getLast hstmt.ne_nil
    rw [List.getLast?_append, List.getLast?_cons, getLast_labeled labels before hstmt.ne_nil, hlast,
      Option.getD_some, Option.some_or] at hch
    obtain rfl := Option.some.inj hch
    exact hstmt.trimmed.last _ hlast

/-- Every label takes up at least its colon. -/
theorem length_labels_le (labels : List LabelDefinition) (before : Str) {stmt : Str}
    (hstmt : Unlabeled stmt) : labels.length ≤ (trim (labeled labels before stmt)).length := by
  induction labels with
  | nil => exact Nat.zero_le _
  | cons label labels ih =>
    have htrim := length_trim_le (labeled labels before stmt)
    rw [trim_labeled_cons label labels before hstmt, List.length_append, List.length_cons,
      List.length_cons]
    omega

/-- The front label is taken off. -/
theorem tryConsumeLabel_labeled {label : LabelDefinition} {labels : List LabelDefinition}
    {before stmt : Str} (hstmt : Unlabeled stmt) :
    tryConsumeLabel (trim (labeled (label :: labels) before stmt))
      = (some label.name, trim (labeled labels before stmt)) := by
  have hcolon : ∀ ch ∈ label.name ++ label.after, (ch != ':'.toUInt8) = true := by
    intro ch hch
    rw [bne_iff_ne]
    rcases List.mem_append.mp hch with hch | hch
    · exact (label_char ch (label.hname.chars ch hch)).2.2.2.1
    · exact ne_of_space (label.hafter.blank ch hch) (by decide)
  have hname : trim (label.name ++ label.after) = label.name := by
    rw [trim_append_blank label.hafter.blank, trim_of_trimmed label.hname.solid.trimmed]
  unfold tryConsumeLabel
  dsimp only
  rw [trim_trim, trim_labeled_cons label labels before hstmt, List.span_eq_takeWhile_dropWhile,
    List.takeWhile_append_of_pos hcolon, List.dropWhile_append_of_pos hcolon,
    List.takeWhile_cons_of_neg (by decide), List.dropWhile_cons_of_neg (by decide), List.append_nil]
  dsimp only
  rw [hname, if_pos label.hname.valid]

/-- A label name passes its check. -/
theorem requireValidLabelName_of {name : Str} (h : IsLabelName name) (lineNumber : ℕ) :
    requireValidLabelName name lineNumber = .ok () := by
  unfold requireValidLabelName
  rw [reject_of_not (not_not.mpr h.valid), ok_bind, reject_of_not (Bool.eq_false_iff.mp h.not_register),
    ok_bind, reject_of_not (Bool.eq_false_iff.mp h.not_opcode), ok_bind,
    reject_of_not (Bool.eq_false_iff.mp h.not_directive)]

/-- A new label passes the check for uniqueness. -/
theorem requireUniqueSymbol_of_new {label : Str} {pass : SymbolPass} (h : label ∉ pass.names)
    (lineNumber : ℕ) : requireUniqueSymbol label lineNumber pass = .ok () := by
  rw [SymbolPass.names, List.map_append, List.mem_append] at h
  rw [requireUniqueSymbol, reject_of_not]
  rwa [lookup_isSome_iff, lookup_isSome_iff]

/-- The label loop of the symbol pass enters the labels in front of a statement. -/
theorem collectLabels_labeled {before stmt : Str} (hbefore : Gap before) (hstmt : Unlabeled stmt)
    (labels : List LabelDefinition) (lineNumber : ℕ) {fuel : ℕ} {pass : SymbolPass} {had : Bool}
    (hfuel : labels.length < fuel)
    (hnew : ∀ label ∈ labels.map LabelDefinition.name, label ∉ pass.names)
    (hdistinct : (labels.map LabelDefinition.name).Nodup) :
    ∃ had', collectLabels lineNumber fuel (trim (labeled labels before stmt)) pass had
      = .ok (pass.defineAll (labels.map LabelDefinition.name), had', stmt) := by
  induction labels generalizing fuel pass had with
  | nil =>
    obtain ⟨fuel, rfl⟩ := Nat.exists_eq_add_one_of_ne_zero (Nat.ne_of_gt hfuel)
    refine ⟨had, ?_⟩
    rw [trim_labeled_nil hbefore hstmt, collectLabels, hstmt.no_label]
    dsimp only
    rw [List.map_nil, defineAll_nil]
  | cons label labels ih =>
    obtain ⟨fuel, rfl⟩ := Nat.exists_eq_add_one_of_ne_zero (Nat.ne_of_gt (Nat.zero_lt_of_lt hfuel))
    rw [List.map_cons, List.nodup_cons] at hdistinct
    obtain ⟨hlabel, hrest⟩ := List.forall_mem_cons.mp hnew
    have hnew' : ∀ name ∈ labels.map LabelDefinition.name, name ∉ (pass.define label.name).names := by
      intro name hname hmem
      rcases List.mem_cons.mp ((names_define pass label.name).mem_iff.mp hmem) with rfl | hmem
      · exact hdistinct.1 hname
      · exact hrest name hname hmem
    obtain ⟨had', hloop⟩ := @ih fuel (pass.define label.name) true
      (Nat.lt_of_succ_lt_succ hfuel) hnew' hdistinct.2
    refine ⟨had', ?_⟩
    rw [collectLabels, tryConsumeLabel_labeled hstmt]
    dsimp only
    rw [requireValidLabelName_of label.hname, ok_bind, requireUniqueSymbol_of_new hlabel, ok_bind,
      trim_trim, hloop, defineAll_define, List.map_cons]

/-- The label loop of the emission pass skips them. -/
theorem skipLabels_labeled {before stmt : Str} (hbefore : Gap before) (hstmt : Unlabeled stmt)
    (labels : List LabelDefinition) {fuel : ℕ} (hfuel : labels.length < fuel) :
    skipLabels fuel (trim (labeled labels before stmt)) = stmt := by
  induction labels generalizing fuel with
  | nil =>
    obtain ⟨fuel, rfl⟩ := Nat.exists_eq_add_one_of_ne_zero (Nat.ne_of_gt hfuel)
    rw [trim_labeled_nil hbefore hstmt, skipLabels, hstmt.no_label]
  | cons label labels ih =>
    obtain ⟨fuel, rfl⟩ := Nat.exists_eq_add_one_of_ne_zero (Nat.ne_of_gt (Nat.zero_lt_of_lt hfuel))
    rw [skipLabels, tryConsumeLabel_labeled hstmt]
    dsimp only
    rw [trim_trim, ih (Nat.lt_of_succ_lt_succ hfuel)]

/-! ## The statement -/

namespace StringLine

variable (line : StringLine)

/-- The keyword starts with its dot. -/
theorem exists_keyword : ∃ rest, line.keyword = '.'.toUInt8 :: rest := by
  have hdot : ∀ ch : UInt8, toLower ch = '.'.toUInt8 → ch = '.'.toUInt8 :=
    forall_byte (by decide +kernel)
  have hkeyword := line.hkeyword
  cases hcases : line.keyword with
  | nil =>
    rw [hcases] at hkeyword
    cases hkeyword
  | cons first rest =>
    rw [hcases] at hkeyword
    exact ⟨rest, by rw [hdot first (List.cons.inj hkeyword).1]⟩

theorem solid_keyword : Solid line.keyword := fun ch hch => (line.keyword_char ch hch).1

/-- The keyword is the first token of the statement. -/
theorem nextToken_statement :
    nextToken line.statement = (line.keyword, line.gap ++ quoted line.content) := by
  obtain ⟨rest, hkeyword⟩ := line.exists_keyword
  have hne : line.keyword ≠ [] := hkeyword ▸ List.cons_ne_nil _ _
  rw [statement, List.append_assoc]
  refine @nextToken_append [] _ _ .nil line.solid_keyword hne fun ch hch => ?_
  obtain ⟨first, rest, hgap⟩ := List.exists_cons_of_ne_nil line.hgap_ne_nil
  rw [hgap, List.cons_append, List.head?_cons] at hch
  obtain rfl := Option.some.inj hch
  exact line.hgap.blank _ (hgap ▸ List.mem_cons_self)

/-- The statement is parsed as the bytes of its content. -/
theorem parseDataDirective_statement (lineNumber : ℕ) :
    parseDataDirective line.statement lineNumber = .ok line.content := by
  have hnewline : 10 ∉ line.gap ++ quoted line.content := fun h =>
    (List.mem_append.mp h).elim line.hgap.no_newline (no_newline_quoted line.content)
  unfold parseDataDirective
  rw [line.nextToken_statement]
  dsimp only
  rw [line.hkeyword, if_neg (by decide), if_neg (by decide), if_neg (by decide), if_pos rfl,
    restOfLine_of_no_newline hnewline, trim_blank_append line.hgap.blank,
    trim_of_trimmed (trimmed_quoted line.content), parseStringLiteral_quoted]

/-- No colon of the string passes for the end of a label: what is in front of it starts with a
dot. -/
theorem unlabeled_statement : Unlabeled line.statement := by
  obtain ⟨rest, hkeyword⟩ := line.exists_keyword
  have hstmt : line.statement = '.'.toUInt8 :: (rest ++ line.gap ++ quoted line.content) := by
    rw [statement, hkeyword, List.cons_append, List.cons_append]
  have htrimmed : Trimmed line.statement := by
    refine ⟨fun ch hch => ?_, fun ch hch => ?_⟩
    · rw [hstmt] at hch
      obtain rfl := Option.some.inj hch
      decide
    · rw [statement, List.getLast?_append, getLast_quoted, Option.some_or] at hch
      obtain rfl := Option.some.inj hch
      decide
  refine ⟨htrimmed, hstmt ▸ List.cons_ne_nil _ _, ?_⟩
  unfold tryConsumeLabel
  dsimp only
  rw [trim_of_trimmed htrimmed, List.span_eq_takeWhile_dropWhile]
  split
  · rfl
  · next heq =>
    have hbefore := (Prod.mk.inj heq).1
    rw [hstmt, List.takeWhile_cons_of_pos (by decide)] at hbefore
    obtain ⟨tail, htail⟩ := exists_trim_cons (by decide : isSpace '.'.toUInt8 = false)
      ((rest ++ line.gap ++ quoted line.content).takeWhile fun ch => ch != ':'.toUInt8)
    have hinvalid : isValidLabelName ('.'.toUInt8 :: tail) = false := rfl
    rw [← hbefore, htail, hinvalid, if_neg Bool.false_ne_true]

/-- A string directive is no section directive. -/
theorem isSectionDirective_statement : isSectionDirective line.statement = false := by
  have hlower : lowerCopy line.statement
      = Str.ofString ".string" ++ lowerCopy (line.gap ++ quoted line.content) := by
    rw [statement, List.append_assoc, lowerCopy, List.map_append]
    exact congrArg (· ++ _) line.hkeyword
  unfold isSectionDirective
  rw [trim_of_trimmed line.unlabeled_statement.trimmed, hlower]
  rfl

/-- A string directive is no entry directive. -/
theorem isEntryDirective_statement : isEntryDirective line.statement = false := by
  unfold isEntryDirective
  rw [trim_of_trimmed line.unlabeled_statement.trimmed, line.nextToken_statement, line.hkeyword]
  rfl

/-! ## Both passes -/

/-- The line as the passes see it, without its comment and trimmed. -/
theorem withoutComment_text :
    withoutComment line.text = trim (labeled line.labels line.before line.statement) := by
  rw [withoutComment, line.removeComment_text, trim_append_blank line.hafter.blank, List.append_assoc,
    labeled]

/-- The label loop has enough rounds for the labels of the line. -/
theorem rounds : line.labels.length
    < (trim (labeled line.labels line.before line.statement)).length + 1 :=
  Nat.lt_succ_of_le (length_labels_le line.labels line.before line.unlabeled_statement)

/-- The symbol pass enters the labels and makes room for the string. -/
theorem collectLine_text {lineNumber : ℕ} {pass : SymbolPass} (hsect : pass.sect = .Data)
    (hnew : ∀ name ∈ line.names, name ∉ pass.names)
    (hroom : line.content.length ≤ kUserDataSize - pass.dataOffset) :
    collectLine lineNumber line.text pass
      = .ok { pass.defineAll line.names with dataOffset := pass.dataOffset + line.content.length } := by
  obtain ⟨had, hlabels⟩ := @collectLabels_labeled _ _ line.hbefore line.unlabeled_statement
    line.labels lineNumber _ pass false line.rounds hnew line.distinct
  change _ = Except.ok (pass.defineAll line.names, had, line.statement) at hlabels
  obtain ⟨hsect', -, hoffset⟩ := defineAll_fields pass line.names
  obtain ⟨rest, hkeyword⟩ := line.exists_keyword
  have hdot : line.statement.head? = some '.' := by
    rw [statement, hkeyword, List.cons_append, List.cons_append, List.head?_cons]
    rfl
  unfold collectLine
  rw [show trim (removeComment line.text) = _ from line.withoutComment_text]
  dsimp only
  rw [hlabels, ok_bind]
  dsimp only
  rw [collectStatement, if_neg line.unlabeled_statement.ne_nil,
    if_neg (Bool.eq_false_iff.mp line.isSectionDirective_statement),
    if_neg (Bool.eq_false_iff.mp line.isEntryDirective_statement), if_pos (hsect'.trans hsect),
    reject_of_not (not_not.mpr hdot), ok_bind, line.parseDataDirective_statement, ok_bind]
  rw [hoffset, reject_of_not (Nat.not_lt.mpr hroom), ok_bind]
  rfl

/-- The emission pass appends the bytes of the string. -/
theorem emitLine_text (dataLabels : LabelTable) (lineNumber : ℕ) {pass : EmitPass}
    (hsect : pass.sect = .Data) :
    emitLine dataLabels lineNumber line.text pass
      = .ok { pass with data := pass.data ++ line.content } := by
  unfold emitLine
  rw [show trim (removeComment line.text) = _ from line.withoutComment_text]
  dsimp only
  rw [skipLabels_labeled line.hbefore line.unlabeled_statement line.labels line.rounds, emitStatement,
    if_neg line.unlabeled_statement.ne_nil,
    if_neg (Bool.eq_false_iff.mp line.isSectionDirective_statement),
    if_neg (Bool.eq_false_iff.mp line.isEntryDirective_statement), if_pos hsect,
    line.parseDataDirective_statement, ok_bind]
  rfl

/-- The line has no line break. -/
theorem no_newline_text : 10 ∉ line.text := by
  unfold text statement
  simp only [List.mem_append, not_or]
  refine ⟨⟨⟨⟨?_, line.hbefore.no_newline⟩, ⟨?_, line.hgap.no_newline⟩, ?_⟩,
    line.hafter.no_newline⟩, ?_⟩
  · intro h
    obtain ⟨label, -, hmem⟩ := List.mem_flatMap.mp h
    rcases List.mem_append.mp hmem with hmem | hmem
    · exact label.hbefore.no_newline hmem
    · rcases List.mem_append.mp hmem with hmem | hmem
      · rcases List.mem_append.mp hmem with hmem | hmem
        · exact (label_char 10 (label.hname.chars 10 hmem)).2.2.2.2 rfl
        · exact label.hafter.no_newline hmem
      · exact absurd (List.mem_singleton.mp hmem) (by decide)
  · exact fun h => (line.keyword_char 10 h).2.2.2.2 rfl
  · exact no_newline_quoted line.content
  · unfold commentText
    cases hcomment : line.comment with
    | none => exact List.not_mem_nil
    | some text =>
      exact fun h => (List.mem_cons.mp h).elim (by decide) (line.hcomment text hcomment)

/-- The line is not empty. -/
theorem text_ne_nil : line.text ≠ [] := by
  intro h
  have hstmt := line.unlabeled_statement.ne_nil
  unfold text at h
  simp only [List.append_eq_nil_iff] at h
  exact hstmt h.1.1.2

end StringLine

/-- A data section with one line in it. -/
theorem splitLines_data {text : Str} (h : 10 ∉ text) (hne : text ≠ []) :
    splitLines (Str.ofString ".data\n" ++ text) = [Str.ofString ".data", text] := by
  have hlast := splitLinesFrom_append h [] []
  rw [List.append_nil, List.nil_append, splitLinesFrom, if_neg hne] at hlast
  change Str.ofString ".data" :: splitLinesFrom [] text = _
  rw [hlast]

/-- The string of the line is emitted as it is: by each pass, in any data section with room for it and
without its labels, and so by the assembler from the line alone. -/
structure EmittedVerbatim (line : StringLine) : Prop where
  collected : ∀ (lineNumber : ℕ) (pass : SymbolPass), pass.sect = .Data →
    (∀ name ∈ line.names, name ∉ pass.names) →
    line.content.length ≤ kUserDataSize - pass.dataOffset →
    collectLine lineNumber line.text pass
      = .ok { pass.defineAll line.names with dataOffset := pass.dataOffset + line.content.length }
  emitted : ∀ (dataLabels : LabelTable) (lineNumber : ℕ) (pass : EmitPass), pass.sect = .Data →
    emitLine dataLabels lineNumber line.text pass
      = .ok { pass with data := pass.data ++ line.content }
  assembled : ∃ program, assembleString (Str.ofString ".data\n" ++ line.text) = .ok program
    ∧ program.data = line.content

/-- Whatever a string holds, its escaped form assembles to it. -/
theorem string_data_emitted_verbatim (line : StringLine) (h : line.content.length ≤ 512) :
    EmittedVerbatim line where
  collected lineNumber pass hsect hnew hroom := line.collectLine_text hsect hnew hroom
  emitted dataLabels lineNumber pass hsect := line.emitLine_text dataLabels lineNumber hsect
  assembled := by
    -- The two passes over the two lines, then the program that comes out.
    have hcollect : collectLines 0 [Str.ofString ".data", line.text] {}
        = .ok { SymbolPass.defineAll { sect := .Data } line.names with
            dataOffset := 0 + line.content.length } := by
      have hfirst : collectLine 1 (Str.ofString ".data") {} = .ok { sect := .Data } := rfl
      have hsecond : collectLine 2 line.text { sect := .Data } = _ :=
        line.collectLine_text rfl (fun _ _ => List.not_mem_nil) h
      rw [collectLines, hfirst, ok_bind, collectLines, hsecond, ok_bind, collectLines]
    have hemit : ∀ dataLabels, emitLines dataLabels 0 [Str.ofString ".data", line.text] {}
        = .ok { sect := .Data, data := line.content } := by
      intro dataLabels
      have hsecond : emitLine dataLabels 2 line.text { sect := .Data } = _ :=
        line.emitLine_text dataLabels 2 rfl
      have hfirst : emitLine dataLabels 1 (Str.ofString ".data") {} = .ok { sect := .Data } := rfl
      rw [emitLines, hfirst, ok_bind, emitLines, hsecond, ok_bind, emitLines]
      rfl
    have hlines := splitLines_data line.no_newline_text line.text_ne_nil
    obtain ⟨symbols, hsymbols⟩ : ∃ symbols,
        collectSymbols [Str.ofString ".data", line.text] = .ok symbols := by
      rw [collectSymbols, hcollect, ok_bind]
      exact ⟨_, rfl⟩
    unfold assembleString
    rw [hlines]
    dsimp only
    rw [hsymbols, ok_bind, emitProgram, hemit, ok_bind]
    exact ⟨_, rfl, rfl⟩

/-- A string that holds what the other scanners look for, with escapes. -/
def sampleLine : StringLine where
  labels := [{
    before := []
    name := "msg"
    after := " "
    hbefore := gap_nil
    hafter := gap_space
    hname := ⟨by decide, by decide, by decide, by decide⟩ }]
  before := " "
  keyword := ".String"
  gap := " "
  content := Str.ofString "a;b: [.text], \"q\\\n"
  after := " "
  comment := some "not \"data"
  hbefore := gap_space
  hkeyword := by decide
  hgap := gap_space
  hgap_ne_nil := space_ne_nil
  hafter := gap_space
  hcomment := by decide
  distinct := by decide

/-- A label, a keyword in mixed case, marks inside the literal and a comment with a quote. -/
theorem string_data_emitted_verbatim_sample :
    sampleLine.text
        = Str.ofString "msg : .String \"a;b: [.text], \\\"q\\\\\\n\" ;not \"data"
      ∧ EmittedVerbatim sampleLine :=
  ⟨by decide +kernel, string_data_emitted_verbatim sampleLine (by decide +kernel)⟩

end ZeroCpu.Assembler
