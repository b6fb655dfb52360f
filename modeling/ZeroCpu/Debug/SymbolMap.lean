import ZeroCpu.Debug.SymbolFile

/-!
# Debug symbols describe the executable

Reference: `src/debug/DebugSymbols.cpp`, `src/assembler/Assembler.cpp`.

`fromAssembledProgram` checks every label and every source line again. The assembler has already
made sure of what it checks: label names are valid and unique across both sections, and an
instruction has a line of its own.
-/

namespace ZeroCpu.Debug

open Library Binary Assembler

/-- In a list with distinct keys an element is found under its key. -/
theorem find?_eq_some_iff_of_nodup {α κ : Type} [DecidableEq κ] {key : α → κ} {xs : List α}
    (h : (xs.map key).Nodup) {k : κ} {x : α} :
    xs.find? (fun a => key a == k) = some x ↔ x ∈ xs ∧ key x = k := by
  constructor
  · intro hfind
    have hkey := List.find?_some (p := fun a => key a == k) hfind
    exact ⟨List.mem_of_find?_eq_some hfind, beq_iff_eq.mp hkey⟩
  · rintro ⟨hmem, rfl⟩
    cases hfind : xs.find? (fun a => key a == key x) with
    | none => exact absurd (beq_self_eq_true (key x)) (List.find?_eq_none.mp hfind x hmem)
    | some y =>
      have hkey := List.find?_some (p := fun a => key a == key x) hfind
      exact congrArg some
        (List.inj_on_of_nodup_map h (List.mem_of_find?_eq_some hfind) hmem (beq_iff_eq.mp hkey))

namespace DebugSymbols

variable {path : Str} {entries : List DebugSymbol} {locations : List DebugSourceLocation}

/-! ## Lookup in stored symbols -/

/-- Every symbol is found under its name. -/
theorem find_described (h : Storable entries locations) {symbol : DebugSymbol}
    (hmem : symbol ∈ entries) : (described path entries locations).find symbol.name = .ok symbol := by
  obtain ⟨i, hi⟩ := List.mem_iff_getElem?.mp hmem
  have hname : (entries.map DebugSymbol.name)[i]? = some symbol.name := by
    rw [List.getElem?_map, hi]
    rfl
  have hkeys : (((entries.map DebugSymbol.name).zipIdx).map Prod.fst).Nodup := by
    rw [List.zipIdx_map_fst]
    exact h.names_distinct
  have hlookup : (described path entries locations).indices.lookup symbol.name = some i :=
    (lookup_eq_some_iff hkeys).mpr (List.mem_zipIdx_iff_getElem?.mpr hname)
  have hentry : (described path entries locations).entries[i]? = some symbol := hi
  rw [find, hlookup]
  simp only [hentry]

/-- Every code symbol is resolved to its address. -/
theorem resolveCode_described (h : Storable entries locations) {symbol : DebugSymbol}
    (hmem : symbol ∈ entries) (hkind : symbol.kind = .Code) :
    (described path entries locations).resolveCode symbol.name = .ok symbol.address := by
  rw [resolveCode, find_described h hmem, ok_bind, reject_of_not (not_not.mpr hkind), ok_bind]
  rfl

/-- Every data symbol is resolved to its address. -/
theorem resolveData_described (h : Storable entries locations) {symbol : DebugSymbol}
    (hmem : symbol ∈ entries) (hkind : symbol.kind = .Data) :
    (described path entries locations).resolveData symbol.name = .ok symbol.address := by
  rw [resolveData, find_described h hmem, ok_bind, reject_of_not (not_not.mpr hkind), ok_bind]
  rfl

/-- A source line is resolved exactly to the address of its location. -/
theorem resolveSourceLine_eq_ok (h : Storable entries locations) {line address : ℕ} :
    (described path entries locations).resolveSourceLine line = .ok address
      ↔ ⟨address, line⟩ ∈ locations := by
  have hfind : ∀ location, locations.find? (fun l => l.line == line) = some location
      ↔ location ∈ locations ∧ location.line = line :=
    fun location => find?_eq_some_iff_of_nodup h.lines_distinct
  simp only [resolveSourceLine, bind_eq_ok, reject_eq_ok, exists_const]
  constructor
  · rintro ⟨-, heq⟩
    split at heq
    · next location hlocation =>
      obtain ⟨hmem, rfl⟩ := (hfind location).mp hlocation
      obtain rfl := Except.ok.inj heq
      exact hmem
    · cases heq
  · intro hmem
    have hlocation := (hfind ⟨address, line⟩).mpr ⟨hmem, rfl⟩
    refine ⟨h.line_pos _ hmem, ?_⟩
    have hfound : (described path entries locations).source_locations.find? (fun l => l.line == line)
        = some ⟨address, line⟩ := hlocation
    rw [hfound]
    rfl

/-- An address is resolved exactly to the line of its location. -/
theorem sourceLineForAddress_eq_ok (h : Storable entries locations) {line address : ℕ} :
    (described path entries locations).sourceLineForAddress address = .ok line
      ↔ ⟨address, line⟩ ∈ locations := by
  have hfind : ∀ location, locations.find? (fun l => l.address == address) = some location
      ↔ location ∈ locations ∧ location.address = address :=
    fun location => find?_eq_some_iff_of_nodup h.addresses_distinct
  unfold sourceLineForAddress
  constructor
  · intro heq
    split at heq
    · next location hlocation =>
      obtain ⟨hmem, rfl⟩ := (hfind location).mp hlocation
      obtain rfl := Except.ok.inj heq
      exact hmem
    · cases heq
  · intro hmem
    have hlocation := (hfind ⟨address, line⟩).mpr ⟨hmem, rfl⟩
    have hfound : (described path entries locations).source_locations.find?
        (fun l => l.address == address) = some ⟨address, line⟩ := hlocation
    rw [hfound]

/-! ## The loops of `fromAssembledProgram` -/

/-- The symbol of a label of the code section. -/
def codeSymbol (codeBase : ℕ) (label : Str × ℕ) : DebugSymbol :=
  ⟨.Code, label.1, codeBase + label.2 * kInstructionSize⟩

/-- The symbol of a label of the data section. -/
def dataSymbol (label : Str × ℕ) : DebugSymbol := ⟨.Data, label.1, label.2⟩

/-- The locations of instructions from number `index` on. -/
def locationsFrom (codeBase index : ℕ) (lines : List ℕ) : List DebugSourceLocation :=
  (lines.zipIdx index).map fun p => ⟨codeBase + p.2 * kInstructionSize, p.1⟩

/-- A loop that enters one symbol a label. -/
theorem foldlM_add {enter : DebugSymbols → Str × ℕ → Except Str DebugSymbols}
    {toSymbol : Str × ℕ → DebugSymbol} {labels : LabelTable}
    (henter : ∀ label ∈ labels, ∀ entries,
      (toSymbol label).name ∉ entries.map DebugSymbol.name →
      enter (described path entries []) label
        = .ok (described path (entries ++ [toSymbol label]) []))
    (hdistinct : ((entries ++ labels.map toSymbol).map DebugSymbol.name).Nodup) :
    labels.foldlM enter (described path entries [])
      = .ok (described path (entries ++ labels.map toSymbol) []) := by
  induction labels generalizing entries with
  | nil =>
    rw [List.map_nil, List.append_nil]
    rfl
  | cons label labels ih =>
    have hnew : (toSymbol label).name ∉ entries.map DebugSymbol.name := by
      rw [List.map_append, List.map_cons, List.map_cons] at hdistinct
      exact not_mem_of_nodup_append hdistinct
    have hsplit : entries ++ (label :: labels).map toSymbol
        = entries ++ [toSymbol label] ++ labels.map toSymbol := by
      rw [List.map_cons, List.append_assoc, List.singleton_append]
    rw [List.foldlM_cons, henter label List.mem_cons_self entries hnew, ok_bind, hsplit]
    exact ih (fun other hother => henter other (List.mem_cons_of_mem _ hother)) (hsplit ▸ hdistinct)

/-- The source lines are appended, an instruction apart. -/
theorem addSourceLines_described {codeBase index : ℕ} {lines : List ℕ}
    (hroom : codeBase + (index + lines.length) * kInstructionSize ≤ sizeMax)
    (hpos : ∀ line ∈ lines, line ≠ 0)
    (hdistinct : (locations.map DebugSourceLocation.line ++ lines).Nodup)
    (hbelow : ∀ location ∈ locations, location.address < codeBase + index * kInstructionSize) :
    addSourceLines codeBase index (described path entries locations) lines
      = .ok (described path entries (locations ++ locationsFrom codeBase index lines)) := by
  -- On the lines; the locations so far lie below the next address.
  induction lines generalizing index locations with
  | nil =>
    rw [locationsFrom, List.zipIdx_nil, List.map_nil, List.append_nil]
    rfl
  | cons line lines ih =>
    rw [List.length_cons] at hroom
    have hindex : ¬ index > (sizeMax - codeBase) / kInstructionSize := by
      have hmul : index * kInstructionSize ≤ sizeMax - codeBase := by
        simp only [kInstructionSize] at hroom ⊢
        omega
      exact not_lt.mpr ((Nat.le_div_iff_mul_le (by decide)).mpr hmul)
    have haddress : codeBase + index * kInstructionSize
        ∉ locations.map DebugSourceLocation.address := by
      intro hmem
      obtain ⟨location, hlocation, heq⟩ := List.mem_map.mp hmem
      exact absurd heq (hbelow location hlocation).ne
    have hsplit : locations ++ locationsFrom codeBase index (line :: lines)
        = locations ++ [⟨codeBase + index * kInstructionSize, line⟩]
          ++ locationsFrom codeBase (index + 1) lines := by
      rw [locationsFrom, List.zipIdx_cons, List.map_cons, List.append_assoc, List.singleton_append]
      rfl
    rw [addSourceLines, reject_of_not hindex, ok_bind,
      addSourceLocation_described (hpos line List.mem_cons_self) haddress
        (not_mem_of_nodup_append hdistinct), ok_bind, hsplit]
    refine ih ?_ (fun other hother => hpos other (List.mem_cons_of_mem _ hother)) ?_ ?_
    · simp only [kInstructionSize] at hroom ⊢
      omega
    · rw [List.map_append, List.map_singleton, List.append_assoc, List.singleton_append]
      exact hdistinct
    · intro location hlocation
      rcases List.mem_append.mp hlocation with hlocation | hlocation
      · have := hbelow location hlocation
        simp only [kInstructionSize] at this ⊢
        omega
      · obtain rfl := List.mem_singleton.mp hlocation
        simp only [kInstructionSize]
        omega

/-- The locations are those of the instructions, in order. -/
theorem mem_locationsFrom {codeBase : ℕ} {lines : List ℕ} {location : DebugSourceLocation} :
    location ∈ locationsFrom codeBase 0 lines
      ↔ ∃ i, lines[i]? = some location.line ∧ location.address = codeBase + i * kInstructionSize := by
  rw [locationsFrom, List.mem_map]
  constructor
  · rintro ⟨⟨line, i⟩, hmem, rfl⟩
    exact ⟨i, List.mem_zipIdx_iff_getElem?.mp hmem, rfl⟩
  · rintro ⟨i, hline, haddress⟩
    refine ⟨(location.line, i), List.mem_zipIdx_iff_getElem?.mpr hline, ?_⟩
    rw [← haddress]

/-- The locations have the source lines. -/
theorem map_line_locationsFrom (codeBase : ℕ) (lines : List ℕ) :
    (locationsFrom codeBase 0 lines).map DebugSourceLocation.line = lines := by
  rw [locationsFrom, List.map_map]
  exact List.zipIdx_map_fst 0 lines

/-- The locations have different addresses. -/
theorem addresses_locationsFrom (codeBase : ℕ) (lines : List ℕ) :
    ((locationsFrom codeBase 0 lines).map DebugSourceLocation.address).Nodup := by
  have haddresses : (locationsFrom codeBase 0 lines).map DebugSourceLocation.address
      = (List.range lines.length).map fun i => codeBase + i * kInstructionSize := by
    have hindices : lines.zipIdx.map Prod.snd = List.range lines.length := by
      rw [List.zipIdx_map_snd, List.range_eq_range']
    rw [locationsFrom, List.map_map, ← hindices, List.map_map]
    rfl
  rw [haddresses]
  refine List.nodup_range.map fun i j h => ?_
  simp only [kInstructionSize] at h
  omega

end DebugSymbols

/-! ## What the assembler has checked -/

/-- A consumed label is a label name. -/
theorem isValidLabelName_of_labelsIn {fuel : ℕ} {line name : Str} (h : name ∈ labelsIn fuel line) :
    isValidLabelName name = true := by
  induction fuel generalizing line with
  | zero => cases h
  | succ fuel ih =>
    rw [labelsIn] at h
    split at h
    · cases h
    · next label rest hlabel =>
      rcases List.mem_cons.mp h with rfl | h
      · unfold tryConsumeLabel at hlabel
        simp only at hlabel
        split at hlabel
        · cases hlabel
        · split_ifs at hlabel with hvalid
          · obtain ⟨heq, -⟩ := Prod.mk.inj hlabel
            rw [← Option.some.inj heq]
            exact hvalid
          · cases hlabel
      · exact ih h

theorem instructionsBefore_mono (lines : List Str) {j k : ℕ} (h : j ≤ k) :
    instructionsBefore lines j ≤ instructionsBefore lines k :=
  (List.range_sublist.mpr h).countP_le

/-- The data before a line is where the data as a whole starts. -/
theorem dataBefore_prefix (lines : List Str) {j k : ℕ} (h : j ≤ k) :
    ∃ after, dataBefore lines k = dataBefore lines j ++ after := by
  induction k, h using Nat.le_induction with
  | base => exact ⟨[], (List.append_nil _).symm⟩
  | succ k _ ih =>
    obtain ⟨after, hafter⟩ := ih
    exact ⟨after ++ dataLineBytes lines k, by rw [dataBefore_succ, hafter, List.append_assoc]⟩

/-- The lines of the instructions, from the text alone. -/
theorem source_lines_of_assembled {source : Str} {program : AssembledProgram}
    (h : assembleString source = .ok program) :
    program.instruction_source_lines
      = ((List.range (splitLines source).length).filter
        (isInstructionLine (splitLines source))).map (· + 1) := by
  obtain ⟨symbols, result, emitted, -, -, -, einv, rfl⟩ := assembleString_eq_ok h
  exact einv.source_lines

/-- Line `line` of the text, counted from one, holds an instruction. -/
def HoldsInstruction (source : Str) (line : ℕ) : Prop :=
  1 ≤ line ∧ isInstructionLine (splitLines source) (line - 1) = true

/-- The source lines are the lines that hold an instruction. -/
theorem mem_source_lines {source : Str} {program : AssembledProgram}
    (h : assembleString source = .ok program) {line : ℕ} :
    line ∈ program.instruction_source_lines ↔ HoldsInstruction source line := by
  rw [source_lines_of_assembled h, List.mem_map]
  constructor
  · rintro ⟨k, hk, rfl⟩
    exact ⟨by omega, (List.mem_filter.mp hk).2⟩
  · rintro ⟨hpos, hline⟩
    refine ⟨line - 1, List.mem_filter.mpr ⟨List.mem_range.mpr ?_, hline⟩, by omega⟩
    by_contra hge
    rw [isInstructionLine, List.getElem?_eq_none (not_lt.mp hge)] at hline
    cases hline

/-- A text has at most one line more than characters. -/
theorem length_splitLinesFrom_le (current text : Str) :
    (splitLinesFrom current text).length ≤ text.length + 1 := by
  induction text generalizing current with
  | nil =>
    rw [splitLinesFrom]
    split_ifs <;> simp
  | cons ch text ih =>
    rw [splitLinesFrom]
    split_ifs
    · rw [List.length_cons, List.length_cons]
      have := ih []
      omega
    · have := ih (current ++ [ch])
      rw [List.length_cons]
      omega

/-- What the entries of the label tables look like. -/
structure LabelsInOrder (program : AssembledProgram) : Prop where
  names_valid : ∀ label ∈ program.labels ++ program.data_labels, isValidLabelName label.1 = true
  names_distinct : ((program.labels ++ program.data_labels).map Prod.fst).Nodup
  code_le : ∀ label ∈ program.labels, label.2 ≤ program.instructions.length
  data_le : ∀ label ∈ program.data_labels, label.2 ≤ 512

/-- An assembled program has its labels in order. -/
theorem labelsInOrder_of_assembled {source : Str} {program : AssembledProgram}
    (h : assembleString source = .ok program) : LabelsInOrder program := by
  obtain ⟨symbols, -, hagree⟩ := assembler_passes_agree source program h
  have hnames := hagree.names_distinct
  rw [List.map_append, List.nodup_append] at hnames
  have hlength : program.instructions.length
      = instructionsBefore (splitLines source) (splitLines source).length := by
    rw [← hagree.source_lines_length, source_lines_of_assembled h, List.length_map,
      ← List.countP_eq_length_filter]
    rfl
  -- A label's value is the count of what precedes its line, so at most the whole count.
  have hcode : ∀ label ∈ program.labels, isValidLabelName label.1 = true
      ∧ label.2 ≤ program.instructions.length := by
    rintro ⟨name, index⟩ hmem
    obtain ⟨k, text, hline, hname, -, hindex⟩ :=
      (hagree.code_label name index).mp ((lookup_eq_some_iff hnames.1).mpr hmem)
    refine ⟨isValidLabelName_of_labelsIn hname, ?_⟩
    rw [hlength]
    exact hindex ▸ instructionsBefore_mono _ (List.getElem?_eq_some_iff.mp hline).1.le
  have hdata : ∀ label ∈ program.data_labels, isValidLabelName label.1 = true ∧ label.2 ≤ 512 := by
    rintro ⟨name, address⟩ hmem
    obtain ⟨k, text, hline, hname, -, haddress⟩ :=
      (hagree.data_label name address).mp ((lookup_eq_some_iff hnames.2.1).mpr hmem)
    refine ⟨isValidLabelName_of_labelsIn hname, ?_⟩
    obtain ⟨after, hafter⟩ := dataBefore_prefix (splitLines source)
      (List.getElem?_eq_some_iff.mp hline).1.le
    have hle := hagree.data_le
    rw [hagree.data, hafter, List.length_append] at hle
    have hbase : program.data_base = 0 := by
      obtain ⟨_, _, _, -, -, -, -, rfl⟩ := assembleString_eq_ok h
      rfl
    show address ≤ 512
    omega
  exact {
    names_valid := fun label hmem => (List.mem_append.mp hmem).elim
      (fun hmem => (hcode label hmem).1) fun hmem => (hdata label hmem).1
    names_distinct := hagree.names_distinct
    code_le := fun label hmem => (hcode label hmem).2
    data_le := fun label hmem => (hdata label hmem).2 }

namespace DebugSymbols

/-! ## The symbols of an assembled program -/

/-- The entries for the labels of a program. -/
def entriesOf (program : AssembledProgram) (codeBase : ℕ) : List DebugSymbol :=
  (sortedLabels program.labels).map (codeSymbol codeBase)
    ++ (sortedLabels program.data_labels).map dataSymbol

/-- The symbols have the names of the labels. -/
theorem names_entriesOf (program : AssembledProgram) (codeBase : ℕ) :
    ((entriesOf program codeBase).map DebugSymbol.name).Perm
      ((program.labels ++ program.data_labels).map Prod.fst) := by
  rw [entriesOf, List.map_append, List.map_map, List.map_map, List.map_append]
  exact ((List.mergeSort_perm _ _).map _).append ((List.mergeSort_perm _ _).map _)

theorem mem_sortedLabels {labels : LabelTable} {label : Str × ℕ} :
    label ∈ sortedLabels labels ↔ label ∈ labels := (List.mergeSort_perm _ _).mem_iff

/-- The labels and lines of a program of at most 64 instructions are stored. -/
theorem storable_of_assembled {source : Str} {program : AssembledProgram}
    (h : assembleString source = .ok program) (hcount : program.instructions.length ≤ 64)
    (hsize : source.length < sizeMax) :
    Storable (entriesOf program 512) (locationsFrom 512 0 program.instruction_source_lines) := by
  obtain ⟨symbols, -, hagree⟩ := assembler_passes_agree source program h
  have hlabels := labelsInOrder_of_assembled h
  have hsorted := names_entriesOf program 512
  have hmax : 512 + 64 * 24 ≤ sizeMax := by decide
  -- A source line is one of the text's, so its number is small.
  have hline : ∀ line ∈ program.instruction_source_lines, line ≠ 0 ∧ line ≤ sizeMax := by
    intro line hmem
    rw [source_lines_of_assembled h, List.mem_map] at hmem
    obtain ⟨k, hk, rfl⟩ := hmem
    have hlt := List.mem_range.mp (List.mem_filter.mp hk).1
    have hle := length_splitLinesFrom_le [] source
    rw [splitLines] at hlt
    omega
  refine ⟨?_, hsorted.nodup_iff.mpr hlabels.names_distinct, ?_, ?_, addresses_locationsFrom _ _, ?_, ?_⟩
  · intro symbol hmem
    obtain ⟨label, hlabel, heq⟩ := List.mem_map.mp (hsorted.mem_iff.mp (List.mem_map_of_mem hmem))
    rw [← heq]
    exact hlabels.names_valid label hlabel
  · intro symbol hmem
    rcases List.mem_append.mp hmem with hmem | hmem
    · obtain ⟨label, hlabel, rfl⟩ := List.mem_map.mp hmem
      have := hlabels.code_le label (mem_sortedLabels.mp hlabel)
      simp only [codeSymbol, kInstructionSize]
      omega
    · obtain ⟨label, hlabel, rfl⟩ := List.mem_map.mp hmem
      have := hlabels.data_le label (mem_sortedLabels.mp hlabel)
      simp only [dataSymbol]
      omega
  · intro location hmem
    obtain ⟨i, hi, -⟩ := mem_locationsFrom.mp hmem
    exact (hline _ (List.mem_of_getElem? hi)).1
  · rw [map_line_locationsFrom]
    exact hagree.source_lines_increasing.imp fun hlt => hlt.ne
  · intro location hmem
    obtain ⟨i, hi, haddress⟩ := mem_locationsFrom.mp hmem
    refine ⟨?_, (hline _ (List.mem_of_getElem? hi)).2⟩
    have hlt := (List.getElem?_eq_some_iff.mp hi).1
    rw [hagree.source_lines_length] at hlt
    simp only [kInstructionSize] at haddress
    omega

/-- `fromAssembledProgram` takes in every label and every line. -/
theorem fromAssembledProgram_eq {source : Str} {program : AssembledProgram}
    (h : assembleString source = .ok program) (hcount : program.instructions.length ≤ 64)
    (hsize : source.length < sizeMax) (path : Str) :
    fromAssembledProgram program 512 path = .ok (described path (entriesOf program 512)
      (locationsFrom 512 0 program.instruction_source_lines)) := by
  obtain ⟨symbols, -, hagree⟩ := assembler_passes_agree source program h
  have hlabels := labelsInOrder_of_assembled h
  have hstorable := storable_of_assembled h hcount hsize
  have hmax : 512 + 64 * kInstructionSize ≤ sizeMax := by decide
  have hmap : ¬ (program.instruction_source_lines ≠ []
      ∧ program.instruction_source_lines.length ≠ program.instructions.length) := fun hboth =>
    hboth.2 hagree.source_lines_length
  -- The three loops in turn: code labels, data labels, source lines. None of their checks can fail.
  have hcode : (sortedLabels program.labels).foldlM (addCodeLabel 512) (described path [] [])
      = .ok (described path ([] ++ (sortedLabels program.labels).map (codeSymbol 512)) []) := by
    refine foldlM_add (fun label hmem entries hnew => ?_) ?_
    · have hmem := mem_sortedLabels.mp hmem
      have hroom : ¬ label.2 > (sizeMax - 512) / kInstructionSize := by
        have := hlabels.code_le label hmem
        refine not_lt.mpr ((Nat.le_div_iff_mul_le (by decide)).mpr ?_)
        simp only [kInstructionSize] at hmax ⊢
        omega
      rw [addCodeLabel, reject_of_not hroom, ok_bind]
      exact add_described (hlabels.names_valid label (List.mem_append_left _ hmem)) hnew
    · have hnames := hstorable.names_distinct
      rw [entriesOf, List.map_append, List.nodup_append] at hnames
      exact hnames.1
  have hdata : (sortedLabels program.data_labels).foldlM
      (fun (symbols : DebugSymbols) label => symbols.add .Data label.1 label.2)
      (described path ([] ++ (sortedLabels program.labels).map (codeSymbol 512)) [])
      = .ok (described path (entriesOf program 512) []) :=
    foldlM_add (fun label hmem entries hnew => add_described
      (hlabels.names_valid label (List.mem_append_right _ (mem_sortedLabels.mp hmem))) hnew)
      hstorable.names_distinct
  rw [fromAssembledProgram, reject_of_not hmap, ok_bind]
  change (sortedLabels program.labels).foldlM (addCodeLabel 512) (described path [] []) >>= _ = _
  rw [hcode, ok_bind, hdata, ok_bind, addSourceLines_described]
  · rfl
  · rw [hagree.source_lines_length]
    simp only [kInstructionSize] at hmax ⊢
    omega
  · intro line hmem
    exact fun hzero => absurd ((mem_source_lines h).mp hmem).1 (by omega)
  · exact hagree.source_lines_increasing.imp fun hlt => hlt.ne
  · rintro _ ⟨⟩

/-! ## What the symbols say -/

/-- Instruction `i` is at `512 + 24 * i`, under the line that holds it. -/
theorem mem_locations {lines : List ℕ} {line address : ℕ} :
    ⟨address, line⟩ ∈ locationsFrom 512 0 lines
      ↔ ∃ i, lines[i]? = some line ∧ address = 512 + 24 * i := by
  rw [mem_locationsFrom]
  refine exists_congr fun i => and_congr_right fun _ => ?_
  simp only [kInstructionSize]
  omega

/-- The data of a loaded executable starts at address 0. -/
theorem memory_data_of_loaded {program : AssembledProgram} {binary : BinaryProgram}
    {image : Kernel.ProcessImage} {sourceName : Str} (hbase : program.data_base = 0)
    (hbinary : program.toBinaryProgram = .ok binary)
    (hload : Kernel.ProcessImageLoader.loadProgram binary sourceName = .ok image) :
    image.memory.slice 0 program.data.length = program.data := by
  have hsections : binary.data = program.data ∧ binary.header.data_base = 0 := by
    simp only [AssembledProgram.toBinaryProgram, AssembledProgram.toBinaryProgramAt, bind_eq_ok,
      reject_eq_ok, exists_const, hbase] at hbinary
    obtain ⟨-, -, _, -, -, hbinary⟩ := hbinary
    obtain rfl := Except.ok.inj hbinary
    exact ⟨rfl, rfl⟩
  obtain ⟨hname, hloadable, rfl⟩ := Kernel.loadProgram_eq_ok.mp hload
  have hmemory := (hloadable.validImage hname).memory_data
  change _ = binary.data at hmemory
  change (Kernel.imageOf binary sourceName).memory.slice binary.header.data_base.toNat
    binary.data.length = _ at hmemory
  rwa [hsections.1, hsections.2] at hmemory

/-- The symbols lead to where the program's instructions, labels and data are. -/
structure Describes (source : Str) (program : AssembledProgram) (symbols : DebugSymbols) :
    Prop where
  inverse : ∀ line address, symbols.resolveSourceLine line = .ok address
    ↔ symbols.sourceLineForAddress address = .ok line
  lines : ∀ line, (∃ address, symbols.resolveSourceLine line = .ok address)
    ↔ HoldsInstruction source line
  addresses : ∀ address, (∃ line, symbols.sourceLineForAddress address = .ok line)
    ↔ ∃ i < program.instructions.length, address = 512 + 24 * i
  instruction : ∀ i line, program.instruction_source_lines[i]? = some line →
    symbols.resolveSourceLine line = .ok (512 + 24 * i)
  code_label : ∀ name index, program.labels.lookup name = some index →
    symbols.resolveCode name = .ok (512 + 24 * index)
      ∧ ∃ payload, InstructionEncoder.encodeOperand (.label name) program.labels
          = .ok ⟨.CodeAddress, payload⟩
        ∧ payload.toInt = (24 * index : ℕ)
        ∧ ∀ (W : Type) (m : Setup W), m.binaryCodeBase = 512 →
          m.binaryCodeSize = 24 * program.instructions.length → index < program.instructions.length →
          CPU.readBinaryCodeAddress m .CodeAddress payload = .ok (512 + 24 * index)
  data_label : ∀ name address, program.data_labels.lookup name = some address →
    symbols.resolveData name = .ok address
      ∧ ∃ k text after, (splitLines source)[k]? = some text ∧ name ∈ labelsOf text
        ∧ sectionAt (splitLines source) k = .Data
        ∧ program.data = dataBefore (splitLines source) k ++ after
        ∧ address = (dataBefore (splitLines source) k).length
        ∧ ∀ binary sourceName image, program.toBinaryProgram = .ok binary →
          Kernel.ProcessImageLoader.loadProgram binary sourceName = .ok image →
          image.memory.slice address after.length = after

/-- The offset of an instruction of a short program is where its label jumps to. -/
theorem readBinaryCodeAddress_offset {index count : ℕ} (hlt : index < count) (hcount : count ≤ 64)
    {W : Type} {m : Setup W} (hbase : m.binaryCodeBase = 512)
    (hsize : m.binaryCodeSize = 24 * count) :
    CPU.readBinaryCodeAddress m .CodeAddress (Word.ofSize (index * kInstructionSize))
      = .ok (512 + 24 * index) := by
  have hnat : (Word.ofSize (index * kInstructionSize)).toNat = 24 * index := by
    simp only [Word.ofSize, BitVec.toNat_ofNat, kInstructionSize]
    omega
  have hoffset : CPU.checkedSize (Word.ofSize (index * kInstructionSize))
      "Negative binary code address" = .ok (24 * index) := by
    rw [CPU.checkedSize, BitVec.toInt_eq_toNat_of_lt (by omega), hnat, if_neg (by omega)]
  have hin : CPU.isBinaryPcInCode m (512 + 24 * index) = true := by
    simp only [CPU.isBinaryPcInCode, hbase, hsize, kInstructionSize]
    rw [if_neg (by omega), if_neg (by omega), if_neg (by omega), beq_iff_eq]
    omega
  rw [CPU.readBinaryCodeAddress, reject_of_not (by decide), ok_bind, hoffset, ok_bind]
  simp only [hbase]
  rw [reject_of_not (not_not.mpr hin), ok_bind]
  rfl

/-- The symbols of an assembled program describe its executable, and their file holds all of
them. -/
theorem debug_symbols_describe_executable (source : Str) (program : AssembledProgram) (path : Str)
    (h : assembleString source = .ok program) (hcount : program.instructions.length ≤ 64)
    (hsize : source.length < sizeMax) :
    ∃ symbols, fromAssembledProgram program 512 path = .ok symbols
      ∧ Describes source program symbols
      ∧ (10 ∉ path → ∀ file, readFile file symbols.writeFile = .ok symbols) := by
  obtain ⟨pass, -, hagree⟩ := assembler_passes_agree source program h
  have hstorable := storable_of_assembled h hcount hsize
  have hnames := hagree.names_distinct
  rw [List.map_append, List.nodup_append] at hnames
  have hbase : program.data_base = 0 := by
    obtain ⟨_, _, _, -, -, -, -, rfl⟩ := assembleString_eq_ok h
    rfl
  refine ⟨_, fromAssembledProgram_eq h hcount hsize path, ?_,
    fun hpath file => readFile_writeFile hpath hstorable file⟩
  constructor
  case inverse =>
    intro line address
    rw [resolveSourceLine_eq_ok hstorable, sourceLineForAddress_eq_ok hstorable]
  case lines =>
    intro line
    simp only [resolveSourceLine_eq_ok hstorable, mem_locations]
    rw [← mem_source_lines h, List.mem_iff_getElem?]
    constructor
    · rintro ⟨_, i, hi, -⟩
      exact ⟨i, hi⟩
    · rintro ⟨i, hi⟩
      exact ⟨_, i, hi, rfl⟩
  case addresses =>
    intro address
    simp only [sourceLineForAddress_eq_ok hstorable, mem_locations]
    rw [← hagree.source_lines_length]
    constructor
    · rintro ⟨line, i, hi, haddress⟩
      exact ⟨i, (List.getElem?_eq_some_iff.mp hi).1, haddress⟩
    · rintro ⟨i, hi, haddress⟩
      exact ⟨_, i, List.getElem?_eq_getElem hi, haddress⟩
  case instruction =>
    intro i line hline
    rw [resolveSourceLine_eq_ok hstorable, mem_locations]
    exact ⟨i, hline, rfl⟩
  case code_label =>
    intro name index hindex
    have hmem := (lookup_eq_some_iff hnames.1).mp hindex
    have hle := (labelsInOrder_of_assembled h).code_le _ hmem
    have hsymbol : codeSymbol 512 (name, index) ∈ entriesOf program 512 :=
      List.mem_append_left _ (List.mem_map_of_mem (mem_sortedLabels.mpr hmem))
    refine ⟨?_, Word.ofSize (index * kInstructionSize), ?_, ?_, fun W m hm hmsize hlt =>
      readBinaryCodeAddress_offset hlt hcount hm hmsize⟩
    · have hresolve : (described path _ _).resolveCode _ = _ :=
        resolveCode_described hstorable hsymbol rfl
      rw [Nat.mul_comm 24]
      exact hresolve
    · simp only [InstructionEncoder.encodeOperand, hindex]
    · have hnat : (Word.ofSize (index * kInstructionSize)).toNat = 24 * index := by
        simp only [Word.ofSize, BitVec.toNat_ofNat, kInstructionSize]
        omega
      rw [BitVec.toInt_eq_toNat_of_lt (by omega), hnat]
  case data_label =>
    intro name address haddress
    have hmem := (lookup_eq_some_iff hnames.2.1).mp haddress
    have hsymbol : dataSymbol (name, address) ∈ entriesOf program 512 :=
      List.mem_append_right _ (List.mem_map_of_mem (mem_sortedLabels.mpr hmem))
    refine ⟨resolveData_described hstorable hsymbol rfl, ?_⟩
    obtain ⟨k, text, hline, hname, hsect, hplace⟩ := (hagree.data_label name address).mp haddress
    obtain ⟨after, hafter⟩ := dataBefore_prefix (splitLines source)
      (List.getElem?_eq_some_iff.mp hline).1.le
    have hdata := hagree.data.trans hafter
    rw [hbase, Nat.zero_add] at hplace
    refine ⟨k, text, after, hline, hname, hsect, hdata, hplace, ?_⟩
    intro binary sourceName image hbinary hload
    have hmemory := memory_data_of_loaded hbase hbinary hload
    rw [Memory.slice, List.drop_zero, hdata, List.length_append, ← hplace] at hmemory
    have hdrop := congrArg (List.drop address) hmemory
    rwa [List.drop_take, Nat.add_sub_cancel_left, hplace, List.drop_left, ← hplace] at hdrop

/-- The file of a program with both sections. -/
theorem debug_symbols_describe_sample :
    ∃ program symbols, assembleString sampleSource = .ok program
      ∧ fromAssembledProgram program 512 (Str.ofString "sample.asm") = .ok symbols
      ∧ Describes sampleSource program symbols
      ∧ readFile (Str.ofString "sample.sym") symbols.writeFile = .ok symbols := by
  have hrun : ((assembleString sampleSource).toOption.map fun program =>
      program.instructions.length) = some 2 := by
    decide +kernel
  cases ha : assembleString sampleSource with
  | error e =>
    rw [ha] at hrun
    simp [Except.toOption] at hrun
  | ok program =>
    rw [ha] at hrun
    simp only [Except.toOption, Option.map_some, Option.some.injEq] at hrun
    have hsize : sampleSource.length < sizeMax := by decide
    obtain ⟨symbols, hsymbols, hdescribes, hfile⟩ :=
      debug_symbols_describe_executable sampleSource program (Str.ofString "sample.asm") ha
        (by omega) hsize
    exact ⟨program, symbols, rfl, hsymbols, hdescribes, hfile (by decide) _⟩

end DebugSymbols

end ZeroCpu.Debug
