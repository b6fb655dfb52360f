import ZeroCpu.Assembler.Spelling
import ZeroCpu.Trace.Changes
import ZeroCpu.Trace.JsonDiff
import ZeroCpu.Trace.Printed

/-!
# The trace of a CPU as a document

Reference: `include/zero_cpu/trace/TraceJsonWriter.hpp`, `src/trace/TraceJsonWriter.cpp`.

The writer appends to a stream; here its functions return what they append. What `toJson` writes is
the text of `traceDocument`, which says for every field what value it holds.
-/

namespace ZeroCpu

open Library Json

/-- The name of a privilege level. -/
def privilegeLevelToString : PrivilegeLevel → Str
  | .kernel => "Kernel"
  | .user => "User"

/-- What a `TraceEvent` says about its step in words. -/
structure EventTexts where
  stage : TraceEvent → Str
  action : TraceEvent → Str
  datapathString : TraceEvent → Str
  aluDetailString : TraceEvent → Str
  memoryDetailString : TraceEvent → Str
  stackDetailString : TraceEvent → Str
  controlFlowDetailString : TraceEvent → Str
  toCompactString : TraceEvent → Str
  toFullString : TraceEvent → Str

/-- What a trace says about where it comes from. -/
structure TraceJsonMetadata where
  producer : Str := "zero_cpu"
  producer_version : Str := []
  execution_mode : Str := []
  loaded_path : Str := []

namespace Json

/-! ## Lines around fields -/

/-- The lines from a brace to the other. -/
def objectField (fieldIndent : ℕ) (name fields : Str) (comma : Bool) : Str :=
  indent fieldIndent ++ ("\"" ++ (name ++ ("\": \x7b\n" ++ (fields
    ++ (indent fieldIndent ++ ("\x7d" ++ finishField comma))))))

/-- The lines from a bracket to the other. -/
def arrayField (fieldIndent : ℕ) (name elements : Str) (comma : Bool) : Str :=
  indent fieldIndent ++ ("\"" ++ (name ++ ("\": [\n" ++ (elements
    ++ (indent fieldIndent ++ ("]" ++ finishField comma))))))

/-- An object that is an element of an array. -/
def objectElement (objectIndent : ℕ) (fields : Str) (comma : Bool) : Str :=
  indent objectIndent ++ ("\x7b\n" ++ (fields ++ (indent objectIndent ++ ("\x7d" ++ finishField comma))))

/-- A loop over a list in which everything but the last has a comma. -/
def withCommas {α : Type} (line : α → Bool → Str) : List α → Str
  | [] => []
  | a :: rest => line a (!rest.isEmpty) ++ withCommas line rest

end Json

namespace TraceJsonWriter

/-- The version of the schema. -/
def kSchemaVersion : ℕ := 3

/-- The registers of a state. -/
def appendRegisters (state : CPUState) (fieldIndent : ℕ) (comma : Bool) : Str :=
  objectField fieldIndent "registers"
    (withCommas (fun reg => int64Field (fieldIndent + 2) (registerNameToString reg) (state.registers reg))
      RegisterName.all) comma

/-- The flags of a state. -/
def appendFlags (state : CPUState) (fieldIndent : ℕ) (comma : Bool) : Str :=
  objectField fieldIndent "flags" (List.flatten [
    boolField (fieldIndent + 2) "zero" state.flags.zero true,
    boolField (fieldIndent + 2) "sign" state.flags.sign true,
    boolField (fieldIndent + 2) "carry" state.flags.carry true,
    boolField (fieldIndent + 2) "overflow" state.flags.overflow true,
    sizeField (fieldIndent + 2) "raw" state.flags.bits.toNat false]) comma

/-- A state, without its memory. -/
def appendState (name : Str) (state : CPUState) (fieldIndent : ℕ) (comma : Bool) : Str :=
  objectField fieldIndent (escapeJson name) (List.flatten [
    sizeField (fieldIndent + 2) "pc" state.pc true,
    sizeField (fieldIndent + 2) "sp" state.sp true,
    stringField (fieldIndent + 2) "privilege" (privilegeLevelToString state.privilegeLevel) true,
    boolField (fieldIndent + 2) "halted" state.halted true,
    boolField (fieldIndent + 2) "has_error" state.hasError true,
    stringField (fieldIndent + 2) "error_message" state.errorMessage true,
    appendRegisters state (fieldIndent + 2) true,
    appendFlags state (fieldIndent + 2) false]) comma

/-- The registers an event has changed. -/
def appendRegisterChanges (event : TraceEvent) (fieldIndent : ℕ) (comma : Bool) : Str :=
  arrayField fieldIndent "register_changes"
    (withCommas (fun change => objectElement (fieldIndent + 2) (List.flatten [
      stringField (fieldIndent + 4) "name" change.name true,
      int64Field (fieldIndent + 4) "before" change.before true,
      int64Field (fieldIndent + 4) "after" change.after false])) event.changedRegisters) comma

/-- The flags an event has changed. -/
def appendFlagChanges (event : TraceEvent) (fieldIndent : ℕ) (comma : Bool) : Str :=
  arrayField fieldIndent "flag_changes"
    (withCommas (fun change => objectElement (fieldIndent + 2) (List.flatten [
      stringField (fieldIndent + 4) "name" change.name true,
      boolField (fieldIndent + 4) "before" change.before true,
      boolField (fieldIndent + 4) "after" change.after false])) event.changedFlags) comma

/-- The bytes an event has changed. -/
def appendMemoryChanges (event : TraceEvent) (fieldIndent : ℕ) (comma : Bool) : Str :=
  arrayField fieldIndent "memory_changes"
    (withCommas (fun change => objectElement (fieldIndent + 2) (List.flatten [
      sizeField (fieldIndent + 4) "address" change.address true,
      int64Field (fieldIndent + 4) "before" change.before true,
      int64Field (fieldIndent + 4) "after" change.after false])) event.changedMemory) comma

section Events

variable (texts : EventTexts)

/-- An event, with its texts. -/
def appendEvent (event : TraceEvent) (index objectIndent : ℕ) (comma : Bool) : Str :=
  let fieldIndent := objectIndent + 2
  objectElement objectIndent (List.flatten [
    sizeField fieldIndent "index" index true,
    sizeField fieldIndent "pc_before" event.before.pc true,
    sizeField fieldIndent "pc_after" event.after.pc true,
    sizeField fieldIndent "sp_before" event.before.sp true,
    sizeField fieldIndent "sp_after" event.after.sp true,
    stringField fieldIndent "instruction" event.instruction.toString true,
    appendState "state_before" event.before fieldIndent true,
    appendState "state_after" event.after fieldIndent true,
    appendRegisterChanges event fieldIndent true,
    appendFlagChanges event fieldIndent true,
    appendMemoryChanges event fieldIndent true,
    stringField fieldIndent "stage" (texts.stage event) true,
    stringField fieldIndent "action" (texts.action event) true,
    stringField fieldIndent "datapath" (texts.datapathString event) true,
    stringField fieldIndent "alu_detail" (texts.aluDetailString event) true,
    stringField fieldIndent "memory_detail" (texts.memoryDetailString event) true,
    stringField fieldIndent "stack_detail" (texts.stackDetailString event) true,
    stringField fieldIndent "control_flow_detail" (texts.controlFlowDetailString event) true,
    stringField fieldIndent "compact" (texts.toCompactString event) true,
    stringField fieldIndent "full" (texts.toFullString event) true,
    boolField fieldIndent "has_error" (!event.errorMessage.isEmpty) true,
    stringField fieldIndent "error" event.errorMessage false]) comma

/-- One event on its own. -/
def eventToJson (event : TraceEvent) (index : ℕ) : Str := appendEvent texts event index 0 false

/-- A trace. -/
def toJson (events : List TraceEvent) (metadata : TraceJsonMetadata) : Str :=
  "\x7b\n" ++ (List.flatten [
    stringField 2 "schema" "zero_cpu_trace" true,
    sizeField 2 "schema_version" kSchemaVersion true,
    stringField 2 "producer" metadata.producer true,
    stringField 2 "producer_version" metadata.producer_version true,
    stringField 2 "mode" metadata.execution_mode true,
    stringField 2 "loaded_path" metadata.loaded_path true,
    sizeField 2 "event_count" events.length true,
    arrayField 2 "events"
      (withCommas (fun entry => appendEvent texts entry.1 entry.2 4) events.zipIdx) false]
    ++ "\x7d\n")

end Events

/-! ## The document -/

/-- The document of the registers. -/
def registersDocument (registers : RegisterFile) : Document :=
  .object (RegisterName.all.map fun reg => (registerNameToString reg, .number (registers reg).toInt))

/-- The document of FLAGS. -/
def flagsDocument (flags : Flags) : Document := .object [
  ("zero", .boolean flags.zero), ("sign", .boolean flags.sign), ("carry", .boolean flags.carry),
  ("overflow", .boolean flags.overflow), ("raw", .number flags.bits.toNat)]

/-- The document of a state. -/
def stateDocument (state : CPUState) : Document := .object [
  ("pc", .number state.pc), ("sp", .number state.sp),
  ("privilege", .string (privilegeLevelToString state.privilegeLevel)),
  ("halted", .boolean state.halted), ("has_error", .boolean state.hasError),
  ("error_message", .string state.errorMessage), ("registers", registersDocument state.registers),
  ("flags", flagsDocument state.flags)]

/-- The document of a register change. -/
def registerChangeDocument (change : RegisterChange) : Document := .object [
  ("name", .string change.name), ("before", .number change.before.toInt),
  ("after", .number change.after.toInt)]

/-- The document of a flag change. -/
def flagChangeDocument (change : FlagChange) : Document := .object [
  ("name", .string change.name), ("before", .boolean change.before),
  ("after", .boolean change.after)]

/-- The document of a memory change. -/
def memoryChangeDocument (change : MemoryChange) : Document := .object [
  ("address", .number change.address), ("before", .number change.before.toInt),
  ("after", .number change.after.toInt)]

/-- The members of an event. -/
def eventMembers (texts : EventTexts) (event : TraceEvent) (index : ℕ) : List (Str × Document) := [
  ("index", .number index), ("pc_before", .number event.before.pc),
  ("pc_after", .number event.after.pc), ("sp_before", .number event.before.sp),
  ("sp_after", .number event.after.sp), ("instruction", .string event.instruction.toString),
  ("state_before", stateDocument event.before), ("state_after", stateDocument event.after),
  ("register_changes", .array (event.changedRegisters.map registerChangeDocument)),
  ("flag_changes", .array (event.changedFlags.map flagChangeDocument)),
  ("memory_changes", .array (event.changedMemory.map memoryChangeDocument)),
  ("stage", .string (texts.stage event)), ("action", .string (texts.action event)),
  ("datapath", .string (texts.datapathString event)),
  ("alu_detail", .string (texts.aluDetailString event)),
  ("memory_detail", .string (texts.memoryDetailString event)),
  ("stack_detail", .string (texts.stackDetailString event)),
  ("control_flow_detail", .string (texts.controlFlowDetailString event)),
  ("compact", .string (texts.toCompactString event)), ("full", .string (texts.toFullString event)),
  ("has_error", .boolean (!event.errorMessage.isEmpty)), ("error", .string event.errorMessage)]

/-- The document of an event. -/
def eventDocument (texts : EventTexts) (event : TraceEvent) (index : ℕ) : Document :=
  .object (eventMembers texts event index)

/-- The members of a trace. -/
def traceMembers (texts : EventTexts) (events : List TraceEvent) (metadata : TraceJsonMetadata) :
    List (Str × Document) := [
  ("schema", .string "zero_cpu_trace"), ("schema_version", .number kSchemaVersion),
  ("producer", .string metadata.producer), ("producer_version", .string metadata.producer_version),
  ("mode", .string metadata.execution_mode), ("loaded_path", .string metadata.loaded_path),
  ("event_count", .number events.length),
  ("events", .array (events.zipIdx.map fun entry => eventDocument texts entry.1 entry.2))]

/-- The document of a trace. -/
def traceDocument (texts : EventTexts) (events : List TraceEvent) (metadata : TraceJsonMetadata) :
    Document :=
  .object (traceMembers texts events metadata)

/-! ## The text of the document -/

end TraceJsonWriter

namespace Json

theorem stringField_eq (fieldIndent : ℕ) (name value : Str) (comma : Bool) :
    stringField fieldIndent name value comma
      = fieldText fieldIndent name ((Document.string value).text fieldIndent) comma := rfl

theorem sizeField_eq (fieldIndent : ℕ) (name : Str) (value : ℕ) (comma : Bool) :
    sizeField fieldIndent name value comma
      = fieldText fieldIndent name ((Document.number value).text fieldIndent) comma := rfl

theorem boolField_eq (fieldIndent : ℕ) (name : Str) (value comma : Bool) :
    boolField fieldIndent name value comma
      = fieldText fieldIndent name ((Document.boolean value).text fieldIndent) comma := rfl

/-- An object is written as its document. -/
theorem objectField_eq (fieldIndent : ℕ) (name : Str) (fields : List (Str × Document)) (comma : Bool) :
    objectField fieldIndent (escapeJson name) (Document.fieldsText (fieldIndent + 2) fields) comma
      = fieldText fieldIndent name ((Document.object fields).text fieldIndent) comma := by
  have hopen : Str.ofString "\": \x7b\n" = "\": " ++ Str.ofString "\x7b\n" := rfl
  simp only [objectField, fieldText, Document.text, hopen, List.append_assoc]

/-- An array is written as its document. -/
theorem arrayField_eq (fieldIndent : ℕ) (name : Str) (elements : List Document) (comma : Bool) :
    arrayField fieldIndent (escapeJson name) (Document.elementsText (fieldIndent + 2) elements) comma
      = fieldText fieldIndent name ((Document.array elements).text fieldIndent) comma := by
  have hopen : Str.ofString "\": [\n" = "\": " ++ Str.ofString "[\n" := rfl
  simp only [arrayField, fieldText, Document.text, hopen, List.append_assoc]

/-- An object in an array is written as its document. -/
theorem objectElement_eq (objectIndent : ℕ) (fields : List (Str × Document)) (comma : Bool) :
    objectElement objectIndent (Document.fieldsText (objectIndent + 2) fields) comma
      = indent objectIndent ++ ((Document.object fields).text objectIndent ++ finishField comma) := by
  simp only [objectElement, Document.text, List.append_assoc]

/-- The outermost object is written as its document. -/
theorem root_eq (fields : List (Str × Document)) :
    "\x7b\n" ++ (Document.fieldsText 2 fields ++ "\x7d\n") = (Document.object fields).text 0 ++ "\n" := by
  have hclose : Str.ofString "\x7d\n" = "\x7d" ++ Str.ofString "\n" := rfl
  simp only [Document.text, hclose, List.append_assoc]
  rfl

/-- Lines that are written alike have the same text. -/
theorem withCommas_congr {α : Type} {line line' : α → Bool → Str} {l : List α}
    (h : ∀ a ∈ l, line a = line' a) : withCommas line l = withCommas line' l := by
  induction l with
  | nil => rfl
  | cons a l ih =>
    obtain ⟨ha, hl⟩ := List.forall_mem_cons.mp h
    rw [withCommas, withCommas, ha, ih hl]

/-- Fields with commas are the fields of a document. -/
theorem withCommas_fieldText {α : Type} (margin : ℕ) (name : α → Str) (document : α → Document)
    (l : List α) :
    withCommas (fun a => fieldText margin (name a) ((document a).text margin)) l
      = Document.fieldsText margin (l.map fun a => (name a, document a)) := by
  induction l with
  | nil => rfl
  | cons a l ih =>
    rw [withCommas, ih, List.map_cons, Document.fieldsText, List.isEmpty_map]

/-- Elements with commas are the elements of a document. -/
theorem withCommas_element {α : Type} (margin : ℕ) (document : α → Document) (l : List α) :
    withCommas (fun a comma =>
      indent margin ++ ((document a).text margin ++ finishField comma)) l
      = Document.elementsText margin (l.map document) := by
  induction l with
  | nil => rfl
  | cons a l ih =>
    rw [withCommas, ih, List.map_cons, Document.elementsText, List.isEmpty_map]
    simp only [List.append_assoc]

end Json

namespace TraceJsonWriter

/-- The registers are written as their document. -/
theorem appendRegisters_eq (state : CPUState) (fieldIndent : ℕ) (comma : Bool) :
    appendRegisters state fieldIndent comma
      = fieldText fieldIndent "registers" ((registersDocument state.registers).text fieldIndent) comma := by
  rw [registersDocument, ← objectField_eq, ← withCommas_fieldText]
  rfl

/-- FLAGS are written as their document. -/
theorem appendFlags_eq (state : CPUState) (fieldIndent : ℕ) (comma : Bool) :
    appendFlags state fieldIndent comma
      = fieldText fieldIndent "flags" ((flagsDocument state.flags).text fieldIndent) comma := by
  rw [flagsDocument, ← objectField_eq]
  rfl

/-- A state is written as its document. -/
theorem appendState_eq (name : Str) (state : CPUState) (fieldIndent : ℕ) (comma : Bool) :
    appendState name state fieldIndent comma
      = fieldText fieldIndent name ((stateDocument state).text fieldIndent) comma := by
  rw [appendState, appendRegisters_eq, appendFlags_eq, stateDocument, ← objectField_eq]
  rfl

/-- The register changes are written as their documents. -/
theorem appendRegisterChanges_eq (event : TraceEvent) (fieldIndent : ℕ) (comma : Bool) :
    appendRegisterChanges event fieldIndent comma
      = fieldText fieldIndent "register_changes" ((Document.array
        (event.changedRegisters.map registerChangeDocument)).text fieldIndent) comma := by
  rw [← arrayField_eq, ← withCommas_element]
  simp only [registerChangeDocument, ← objectElement_eq]
  rfl

/-- The flag changes are written as their documents. -/
theorem appendFlagChanges_eq (event : TraceEvent) (fieldIndent : ℕ) (comma : Bool) :
    appendFlagChanges event fieldIndent comma
      = fieldText fieldIndent "flag_changes" ((Document.array
        (event.changedFlags.map flagChangeDocument)).text fieldIndent) comma := by
  rw [← arrayField_eq, ← withCommas_element]
  simp only [flagChangeDocument, ← objectElement_eq]
  rfl

/-- The memory changes are written as their documents. -/
theorem appendMemoryChanges_eq (event : TraceEvent) (fieldIndent : ℕ) (comma : Bool) :
    appendMemoryChanges event fieldIndent comma
      = fieldText fieldIndent "memory_changes" ((Document.array
        (event.changedMemory.map memoryChangeDocument)).text fieldIndent) comma := by
  rw [← arrayField_eq, ← withCommas_element]
  simp only [memoryChangeDocument, ← objectElement_eq]
  rfl

/-- An event is written as its document. -/
theorem appendEvent_eq (texts : EventTexts) (event : TraceEvent) (index objectIndent : ℕ)
    (comma : Bool) :
    appendEvent texts event index objectIndent comma
      = indent objectIndent
        ++ ((eventDocument texts event index).text objectIndent ++ finishField comma) := by
  rw [eventDocument, ← objectElement_eq]
  simp only [appendEvent, appendState_eq, appendRegisterChanges_eq, appendFlagChanges_eq,
    appendMemoryChanges_eq]
  rfl

theorem eventToJson_eq (texts : EventTexts) (event : TraceEvent) (index : ℕ) :
    eventToJson texts event index = (eventDocument texts event index).text 0 ++ "\n" :=
  appendEvent_eq texts event index 0 false

/-- What is written is the text of the document. -/
theorem toJson_eq (texts : EventTexts) (events : List TraceEvent) (metadata : TraceJsonMetadata) :
    toJson texts events metadata = (traceDocument texts events metadata).text 0 ++ "\n" := by
  have hevents : arrayField 2 "events"
      (withCommas (fun entry => appendEvent texts entry.1 entry.2 4) events.zipIdx) false
      = fieldText 2 "events" ((Document.array
        (events.zipIdx.map fun entry => eventDocument texts entry.1 entry.2)).text 2) false := by
    rw [← arrayField_eq, ← withCommas_element]
    refine congrArg (arrayField 2 "events" · false) (withCommas_congr fun entry _ => ?_)
    funext comma
    exact appendEvent_eq texts entry.1 entry.2 4 comma
  rw [toJson, hevents, traceDocument, ← root_eq]
  rfl

end TraceJsonWriter

end ZeroCpu
