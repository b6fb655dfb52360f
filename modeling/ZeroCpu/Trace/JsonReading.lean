import ZeroCpu.Trace.JsonWriter
import ZeroCpu.Trace.Layouts

/-!
# Reading the trace of a CPU

Reference: `src/trace/TraceJsonWriter.cpp`, `src/trace/TraceJsonDiff.cpp`.

What the writer writes, the reader parses, checks and compares. The numbers of the reader are those
of `std::int64_t`, the writer also writes those of `std::size_t`: addresses and counters must not
exceed the former (`Representable`).
-/

namespace ZeroCpu

open Library Json Json.Document

/-! ## Numbers in range -/

/-- The number fits `std::int64_t`. -/
def Representable (n : ℕ) : Prop := (n : ℤ) ≤ int64Max

instance Representable.decidable (n : ℕ) : Decidable (Representable n) :=
  inferInstanceAs (Decidable (_ ≤ _))

theorem Json.Document.Readable.size {n : ℕ} (h : Representable n) : Readable (.number n) :=
  .number (by have : int64Min ≤ 0 := by decide
              omega) h

/-- A word, as a signed number, can always be read back. -/
theorem Json.Document.Readable.word (value : Word) : Readable (.number value.toInt) := by
  have hle := BitVec.two_mul_toInt_lt (x := value)
  have hge := BitVec.le_two_mul_toInt (x := value)
  refine .number ?_ ?_
  · rw [int64Min]
    omega
  · rw [int64Max]
    omega

/-- The addresses of a state fit `std::int64_t`. -/
def CPUState.Representable (state : CPUState) : Prop :=
  ZeroCpu.Representable state.pc ∧ ZeroCpu.Representable state.sp
    ∧ ZeroCpu.Representable state.memory.size

instance CPUState.Representable.decidable (state : CPUState) : Decidable state.Representable :=
  inferInstanceAs (Decidable (_ ∧ _ ∧ _))

/-- The sizes an event shows fit the reader. -/
def TraceEvent.Representable (event : TraceEvent) : Prop :=
  event.before.Representable ∧ event.after.Representable

instance TraceEvent.Representable.decidable (event : TraceEvent) : Decidable event.Representable :=
  inferInstanceAs (Decidable (_ ∧ _))

/-- The addresses of the memory changes fit as well, since they come from the memory. -/
theorem TraceEvent.Representable.address {event : TraceEvent} (h : event.Representable)
    {change : MemoryChange} (hchange : change ∈ event.changedMemory) :
    ZeroCpu.Representable change.address := by
  obtain ⟨address, hmem, hchange⟩ := List.mem_filterMap.mp hchange
  have hlt := List.mem_range.mp hmem
  obtain rfl : address = change.address := by
    obtain ⟨-, hchange⟩ := Option.ite_none_right_eq_some.mp hchange
    exact congrArg MemoryChange.address (Option.some.inj hchange)
  have hsize := h.1.2.2
  rw [ZeroCpu.Representable] at hsize ⊢
  omega

/-- The states differ at most in their memory. -/
def CPUState.AgreesUpToMemory (state state' : CPUState) : Prop :=
  { state with memory := state'.memory } = state'

/-- The events tell of the same step: the same states, of whose memory only the changes are told, the
same instruction and the same error. -/
structure TraceEvent.Agrees (event event' : TraceEvent) : Prop where
  before : event.before.AgreesUpToMemory event'.before
  after : event.after.AgreesUpToMemory event'.after
  instruction : event.instruction.toString = event'.instruction.toString
  memory : event.changedMemory = event'.changedMemory
  errorMessage : event.errorMessage = event'.errorMessage

namespace TraceJsonWriter

/-! ## Keys -/

/-- The keys of the registers, in their order. -/
def registerKeys : List Str := RegisterName.all.map registerNameToString

theorem nodup_registerKeys : registerKeys.Nodup := by decide

/-- The keys of FLAGS. -/
def flagsKeys : List Str := ["zero", "sign", "carry", "overflow", "raw"]

theorem nodup_flagsKeys : flagsKeys.Nodup := by decide

/-- The keys of a CPU state. -/
def stateKeys : List Str :=
  ["pc", "sp", "privilege", "halted", "has_error", "error_message", "registers", "flags"]

theorem nodup_stateKeys : stateKeys.Nodup := by decide

/-- The keys of a change of a register or a flag. -/
def namedChangeKeys : List Str := ["name", "before", "after"]

/-- The keys of a change of a register or a flag are distinct. -/
theorem nodup_namedChangeKeys : namedChangeKeys.Nodup := by decide

/-- The keys of a change of memory. -/
def memoryChangeKeys : List Str := ["address", "before", "after"]

theorem nodup_memoryChangeKeys : memoryChangeKeys.Nodup := by decide

/-- The keys of an event, as the writer orders them. -/
def eventKeys : List Str :=
  ["index", "pc_before", "pc_after", "sp_before", "sp_after", "instruction", "state_before",
    "state_after", "register_changes", "flag_changes", "memory_changes", "stage", "action", "datapath",
    "alu_detail", "memory_detail", "stack_detail", "control_flow_detail", "compact", "full",
    "has_error", "error"]

theorem nodup_eventKeys : eventKeys.Nodup := by decide

theorem nodup_eventFields : eventFields.Nodup := by decide

/-- The keys of a trace, as the writer orders them. -/
def traceKeys : List Str :=
  ["schema", "schema_version", "producer", "producer_version", "mode", "loaded_path", "event_count",
    "events"]

theorem nodup_traceKeys : traceKeys.Nodup := by decide

/-- The keys of the architectural view of a trace. -/
def traceViewKeys : List Str := ["schema", "schema_version", "mode", "event_count", "events"]

theorem nodup_traceViewKeys : traceViewKeys.Nodup := by decide

/-- The registers are written under their keys. -/
theorem registersDocument_keys (registers : RegisterFile) :
    (RegisterName.all.map fun reg =>
      (registerNameToString reg, Document.number (registers reg).toInt)).map Prod.fst = registerKeys := by
  rw [List.map_map]
  rfl

/-! ## Documents in range -/

/-- The registers can be read back. -/
theorem registersDocument_readable (registers : RegisterFile) : (registersDocument registers).Readable := by
  refine .object (registersDocument_keys registers ▸ nodup_registerKeys) fun field hfield => ?_
  obtain ⟨reg, -, rfl⟩ := List.mem_map.mp hfield
  exact .word _

/-- FLAGS can be read back. -/
theorem flagsDocument_readable (flags : Flags) : (flagsDocument flags).Readable := by
  have hraw : ZeroCpu.Representable flags.bits.toNat := by
    have := flags.bits.isLt
    rw [Representable, int64Max]
    omega
  refine .object nodup_flagsKeys ?_
  simp only [List.forall_mem_cons]
  exact ⟨.boolean _, .boolean _, .boolean _, .boolean _, .size hraw, List.forall_mem_nil _⟩

/-- A state whose PC and SP fit can be read back. -/
theorem stateDocument_readable {state : CPUState} (h : state.Representable) :
    (stateDocument state).Readable := by
  refine .object nodup_stateKeys ?_
  simp only [List.forall_mem_cons]
  exact ⟨.size h.1, .size h.2.1, .string _, .boolean _, .boolean _, .string _,
    registersDocument_readable _, flagsDocument_readable _, List.forall_mem_nil _⟩

/-- The elements of an array that are all documents of one kind. -/
theorem array_readable {α : Type} {document : α → Document} {l : List α}
    (h : ∀ a ∈ l, (document a).Readable) : (Document.array (l.map document)).Readable := by
  refine .array fun element helement => ?_
  obtain ⟨a, hmem, rfl⟩ := List.mem_map.mp helement
  exact h a hmem

/-- A register change can be read back. -/
theorem registerChangeDocument_readable (change : RegisterChange) :
    (registerChangeDocument change).Readable := by
  refine .object nodup_namedChangeKeys ?_
  simp only [List.forall_mem_cons]
  exact ⟨.string _, .word _, .word _, List.forall_mem_nil _⟩

/-- A flag change can be read back. -/
theorem flagChangeDocument_readable (change : FlagChange) :
    (flagChangeDocument change).Readable := by
  refine .object nodup_namedChangeKeys ?_
  simp only [List.forall_mem_cons]
  exact ⟨.string _, .boolean _, .boolean _, List.forall_mem_nil _⟩

/-- A memory change at an address that fits can be read back. -/
theorem memoryChangeDocument_readable {change : MemoryChange}
    (h : ZeroCpu.Representable change.address) : (memoryChangeDocument change).Readable := by
  refine .object nodup_memoryChangeKeys ?_
  simp only [List.forall_mem_cons]
  exact ⟨.size h, .word _, .word _, List.forall_mem_nil _⟩

/-- An event whose integers fit can be read back. -/
theorem eventDocument_readable (texts : EventTexts) {event : TraceEvent} (h : event.Representable)
    {index : ℕ} (hindex : ZeroCpu.Representable index) :
    (eventDocument texts event index).Readable := by
  refine .object nodup_eventKeys ?_
  simp only [eventMembers, List.forall_mem_cons]
  exact ⟨.size hindex, .size h.1.1, .size h.2.1, .size h.1.2.1, .size h.2.2.1, .string _,
    stateDocument_readable h.1, stateDocument_readable h.2,
    array_readable fun change _ => registerChangeDocument_readable change,
    array_readable fun change _ => flagChangeDocument_readable change,
    array_readable fun change hchange => memoryChangeDocument_readable (h.address hchange),
    .string _, .string _, .string _, .string _, .string _, .string _, .string _, .string _, .string _,
    .boolean _, .string _, List.forall_mem_nil _⟩

/-- A trace whose integers fit can be read back. -/
theorem traceDocument_readable (texts : EventTexts) {events : List TraceEvent}
    (h : ∀ event ∈ events, event.Representable) (hlength : ZeroCpu.Representable events.length)
    (metadata : TraceJsonMetadata) : (traceDocument texts events metadata).Readable := by
  refine .object nodup_traceKeys ?_
  simp only [traceMembers, List.forall_mem_cons]
  refine ⟨.string _, .size (by decide), .string _, .string _, .string _, .string _, .size hlength,
    array_readable fun entry hentry => ?_, List.forall_mem_nil _⟩
  obtain ⟨event, index⟩ := entry
  have hevent : event ∈ events := List.fst_mem_of_mem_zipIdx hentry
  have hindex : index < events.length := by
    have := List.snd_lt_of_mem_zipIdx hentry
    omega
  refine eventDocument_readable texts (h event hevent) ?_
  rw [ZeroCpu.Representable] at hlength ⊢
  omega

/-! ## Checks -/

theorem isArray_array (elements : List Document) : (Document.array elements).value.isArray = true := rfl

theorem elements_array (elements : List Document) :
    (Document.array elements).value.elements = valuesOf elements := rfl

/-- A count that is the length of the array is accepted. -/
theorem not_miscounts {n : ℕ} {elements : List Document} (h : n = elements.length) :
    ¬ Miscounts n (Document.array elements).value := by
  have hlength : (Document.array elements).value.elements.length = n := by
    show (valuesOf elements).length = n
    rw [valuesOf_eq_map, List.length_map, h]
  rw [Miscounts, hlength]
  omega

section Fields

variable (texts : EventTexts) (events : List TraceEvent) (metadata : TraceJsonMetadata)

/-- A member of the trace document is found under its key. -/
theorem requiredField_trace {name : Str} {document : Document}
    (h : (traceMembers texts events metadata).lookup name = some document) :
    requiredField (traceDocument texts events metadata).value name = .ok document.value :=
  requiredField_value nodup_traceKeys (by rfl) h

/-- The events of the trace document are found under their key. -/
theorem requiredField_events :
    requiredField (traceDocument texts events metadata).value "events" = .ok (Document.array
      (events.zipIdx.map fun entry => eventDocument texts entry.1 entry.2)).value :=
  requiredField_trace texts events metadata rfl

/-- What the writer writes is a single-process trace to the reader. -/
theorem validate_traceDocument (label : Str) :
    validateTraceDocument (traceDocument texts events metadata).value label = .ok .SingleProcess := by
  have hschema : requiredString (traceDocument texts events metadata).value "schema"
      = .ok "zero_cpu_trace" := by
    rw [requiredString, requiredField_trace texts events metadata rfl]
    rfl
  have hversion : requiredNumber (traceDocument texts events metadata).value "schema_version" = .ok 3 := by
    rw [requiredNumber, requiredField_trace texts events metadata rfl]
    rfl
  have hcount : requiredNumber (traceDocument texts events metadata).value "event_count"
      = .ok (events.length : ℤ) := by
    rw [requiredNumber, requiredField_trace texts events metadata rfl]
    rfl
  rw [validateTraceDocument, reject_of_not (by exact not_not.mpr rfl), ok_bind, hschema, ok_bind,
    hversion, ok_bind, if_pos rfl, validateSingleProcess, reject_of_not (not_not.mpr rfl), ok_bind,
    requiredField_events, ok_bind, reject_of_not (not_not.mpr (isArray_array _)), ok_bind, hcount,
    ok_bind, reject_of_not (not_miscounts (by rw [List.length_map, List.length_zipIdx]))]
  rfl

end Fields

/-! ## The architectural view -/

/-- What the architectural view keeps of an event. -/
def eventView (event : TraceEvent) (index : ℕ) : Document := .object [
  ("index", .number index), ("pc_before", .number event.before.pc),
  ("pc_after", .number event.after.pc), ("sp_before", .number event.before.sp),
  ("sp_after", .number event.after.sp), ("instruction", .string event.instruction.toString),
  ("state_before", stateDocument event.before), ("state_after", stateDocument event.after),
  ("register_changes", .array (event.changedRegisters.map registerChangeDocument)),
  ("flag_changes", .array (event.changedFlags.map flagChangeDocument)),
  ("memory_changes", .array (event.changedMemory.map memoryChangeDocument)),
  ("has_error", .boolean (!event.errorMessage.isEmpty)), ("error", .string event.errorMessage)]

/-- What the architectural view keeps of a trace. -/
def traceView (events : List TraceEvent) (metadata : TraceJsonMetadata) : Document := .object [
  ("schema", .string "zero_cpu_trace"), ("schema_version", .number kSchemaVersion),
  ("mode", .string metadata.execution_mode), ("event_count", .number events.length),
  ("events", .array (events.zipIdx.map fun entry => eventView entry.1 entry.2))]

/-- The architectural view of a written event. -/
theorem traceEventArchitecturalView_eventDocument (texts : EventTexts) (event : TraceEvent) (index : ℕ) :
    traceEventArchitecturalView (eventDocument texts event index).value
      = .ok (eventView event index).value := by
  have hfields : ∀ name ∈ eventFields, name ∈ eventKeys := by decide
  exact selectObjectFields_value nodup_eventKeys (by rfl) hfields

/-- The architectural view of a written trace. -/
theorem singleProcessArchitecturalView_traceDocument (texts : EventTexts) (events : List TraceEvent)
    (metadata : TraceJsonMetadata) :
    singleProcessArchitecturalView (traceDocument texts events metadata).value
      = .ok (traceView events metadata).value := by
  have hfields : ∀ name ∈ (["schema", "schema_version", "mode", "event_count"] : List Str),
      name ∈ traceKeys := by decide
  have hevents : (valuesOf (events.zipIdx.map fun entry =>
      eventDocument texts entry.1 entry.2)).mapM traceEventArchitecturalView
      = .ok (valuesOf (events.zipIdx.map fun entry => eventView entry.1 entry.2)) :=
    mapM_valuesOf fun entry _ =>
      traceEventArchitecturalView_eventDocument texts entry.1 entry.2
  rw [singleProcessArchitecturalView, requiredField_events, ok_bind, elements_array, hevents, ok_bind,
    traceDocument, emplaceFields_value nodup_traceKeys (by rfl) hfields, ok_bind]
  rfl

/-! ## Layouts -/

/-- Two register files have documents of one layout. -/
theorem registersDocument_alike (registers registers' : RegisterFile) :
    Alike (registersDocument registers) (registersDocument registers') := by
  refine .of_keys nodup_registerKeys (registersDocument_keys _) (registersDocument_keys _) ?_
  intro pair hpair
  rw [List.zip_map', List.mem_map] at hpair
  obtain ⟨reg, -, rfl⟩ := hpair
  exact .number _ _

/-- Two FLAGS have documents of one layout. -/
theorem flagsDocument_alike (flags flags' : Flags) :
    Alike (flagsDocument flags) (flagsDocument flags') := by
  refine .of_keys nodup_flagsKeys rfl rfl ?_
  simp only [List.zip_cons_cons, List.zip_nil_left, List.forall_mem_cons]
  exact ⟨.boolean _ _, .boolean _ _, .boolean _ _, .boolean _ _, .number _ _, List.forall_mem_nil _⟩

/-- Two states have documents of one layout. -/
theorem stateDocument_alike (state state' : CPUState) :
    Alike (stateDocument state) (stateDocument state') := by
  refine .of_keys nodup_stateKeys rfl rfl ?_
  simp only [List.zip_cons_cons, List.zip_nil_left, List.forall_mem_cons]
  exact ⟨.number _ _, .number _ _, .string _ _, .boolean _ _, .boolean _ _, .string _ _,
    registersDocument_alike _ _, flagsDocument_alike _ _, List.forall_mem_nil _⟩

/-- Arrays of documents of one kind. -/
theorem array_alike {α : Type} {document document' : α → Document}
    (h : ∀ a a', Alike (document a) (document' a')) (l l' : List α) :
    Alike (.array (l.map document)) (.array (l'.map document')) := by
  refine .array fun element helement element' helement' => ?_
  obtain ⟨a, -, rfl⟩ := List.mem_map.mp helement
  obtain ⟨a', -, rfl⟩ := List.mem_map.mp helement'
  exact h a a'

/-- Two register changes have documents of one layout. -/
theorem registerChangeDocument_alike (change change' : RegisterChange) :
    Alike (registerChangeDocument change) (registerChangeDocument change') := by
  refine .of_keys nodup_namedChangeKeys rfl rfl ?_
  simp only [List.zip_cons_cons, List.zip_nil_left, List.forall_mem_cons]
  exact ⟨.string _ _, .number _ _, .number _ _, List.forall_mem_nil _⟩

/-- Two flag changes have documents of one layout. -/
theorem flagChangeDocument_alike (change change' : FlagChange) :
    Alike (flagChangeDocument change) (flagChangeDocument change') := by
  refine .of_keys nodup_namedChangeKeys rfl rfl ?_
  simp only [List.zip_cons_cons, List.zip_nil_left, List.forall_mem_cons]
  exact ⟨.string _ _, .boolean _ _, .boolean _ _, List.forall_mem_nil _⟩

/-- Two memory changes have documents of one layout. -/
theorem memoryChangeDocument_alike (change change' : MemoryChange) :
    Alike (memoryChangeDocument change) (memoryChangeDocument change') := by
  refine .of_keys nodup_memoryChangeKeys rfl rfl ?_
  simp only [List.zip_cons_cons, List.zip_nil_left, List.forall_mem_cons]
  exact ⟨.number _ _, .number _ _, .number _ _, List.forall_mem_nil _⟩

/-- Two events have documents of one layout, whatever their texts. -/
theorem eventDocument_alike (texts texts' : EventTexts) (event event' : TraceEvent) (index index' : ℕ) :
    Alike (eventDocument texts event index) (eventDocument texts' event' index') := by
  refine .of_keys nodup_eventKeys rfl rfl ?_
  simp only [eventMembers, List.zip_cons_cons, List.zip_nil_left, List.forall_mem_cons]
  exact ⟨.number _ _, .number _ _, .number _ _, .number _ _, .number _ _, .string _ _,
      stateDocument_alike _ _, stateDocument_alike _ _,
      array_alike registerChangeDocument_alike _ _, array_alike flagChangeDocument_alike _ _,
      array_alike memoryChangeDocument_alike _ _, .string _ _, .string _ _, .string _ _, .string _ _,
      .string _ _, .string _ _, .string _ _, .string _ _, .string _ _, .boolean _ _, .string _ _,
      List.forall_mem_nil _⟩

/-- Two traces have documents of one layout. -/
theorem traceDocument_alike (texts texts' : EventTexts) (events events' : List TraceEvent)
    (metadata metadata' : TraceJsonMetadata) :
    Alike (traceDocument texts events metadata) (traceDocument texts' events' metadata') := by
  refine .of_keys nodup_traceKeys rfl rfl ?_
  simp only [traceMembers, List.zip_cons_cons, List.zip_nil_left, List.forall_mem_cons]
  exact ⟨.string _ _, .number _ _, .string _ _, .string _ _, .string _ _, .string _ _, .number _ _,
      array_alike (fun entry entry' => eventDocument_alike _ _ _ _ _ _) _ _, List.forall_mem_nil _⟩

/-- The views of two events have one layout. -/
theorem eventView_alike (event event' : TraceEvent) (index index' : ℕ) :
    Alike (eventView event index) (eventView event' index') := by
  refine .of_keys nodup_eventFields rfl rfl ?_
  simp only [List.zip_cons_cons, List.zip_nil_left, List.forall_mem_cons]
  exact ⟨.number _ _, .number _ _, .number _ _, .number _ _, .number _ _, .string _ _,
    stateDocument_alike _ _, stateDocument_alike _ _,
    array_alike registerChangeDocument_alike _ _, array_alike flagChangeDocument_alike _ _,
    array_alike memoryChangeDocument_alike _ _, .boolean _ _, .string _ _, List.forall_mem_nil _⟩

/-- The views of two traces have one layout. -/
theorem traceView_alike (events events' : List TraceEvent) (metadata metadata' : TraceJsonMetadata) :
    Alike (traceView events metadata) (traceView events' metadata') := by
  refine .of_keys nodup_traceViewKeys rfl rfl ?_
  simp only [List.zip_cons_cons, List.zip_nil_left, List.forall_mem_cons]
  exact ⟨.string _ _, .number _ _, .string _ _, .number _ _,
    array_alike (fun entry entry' => eventView_alike _ _ _ _) _ _, List.forall_mem_nil _⟩

/-! ## What is written of a step -/

/-- The document of the registers determines them. -/
theorem registersDocument_inj {registers registers' : RegisterFile} :
    registersDocument registers = registersDocument registers' ↔ registers = registers' := by
  constructor
  · intro h
    funext reg
    have hfields := List.map_inj_left.mp (Document.object.inj h) reg (RegisterName.mem_all reg)
    exact BitVec.eq_of_toInt_eq (Document.number.inj (Prod.ext_iff.mp hfields).2)
  · rintro rfl
    rfl

/-- The document of FLAGS determines them, through the raw word. -/
theorem flagsDocument_inj {flags flags' : Flags} :
    flagsDocument flags = flagsDocument flags' ↔ flags = flags' := by
  constructor
  · intro h
    simp only [flagsDocument, Document.object.injEq, List.cons.injEq, Prod.mk.injEq,
      Document.number.injEq, Nat.cast_inj, true_and, and_true] at h
    obtain ⟨bits⟩ := flags
    obtain ⟨bits'⟩ := flags'
    exact congrArg Flags.mk (BitVec.eq_of_toNat_eq h.2.2.2.2)
  · rintro rfl
    rfl

theorem privilegeLevelToString_injective : Function.Injective privilegeLevelToString := by
  intro level level' h
  cases level <;> cases level' <;> first | rfl | exact absurd h (by decide)

/-- The document of a state determines all of it but the memory. -/
theorem stateDocument_inj {state state' : CPUState} :
    stateDocument state = stateDocument state' ↔ state.AgreesUpToMemory state' := by
  obtain ⟨registers, memory, flags, privilegeLevel, pc, sp, halted, hasError, errorMessage⟩ := state
  obtain ⟨registers', memory', flags', privilegeLevel', pc', sp', halted', hasError', errorMessage'⟩ :=
    state'
  simp only [stateDocument, CPUState.AgreesUpToMemory, Document.object.injEq, List.cons.injEq,
    Prod.mk.injEq, Document.number.injEq, Document.string.injEq, Document.boolean.injEq, Nat.cast_inj,
    registersDocument_inj, flagsDocument_inj, privilegeLevelToString_injective.eq_iff,
    CPUState.mk.injEq, true_and, and_true]
  tauto

/-- The document of a memory change determines it. -/
theorem memoryChangeDocument_injective : Function.Injective memoryChangeDocument := by
  intro change change' h
  obtain ⟨address, before, after⟩ := change
  obtain ⟨address', before', after'⟩ := change'
  simp only [memoryChangeDocument, Document.object.injEq, List.cons.injEq, Prod.mk.injEq,
    Document.number.injEq, Nat.cast_inj, BitVec.toInt_inj, true_and, and_true] at h
  rw [h.1, h.2.1, h.2.2]

/-- The view of an event determines what the trace records about the machine. -/
theorem eventView_inj {event event' : TraceEvent} (index : ℕ) :
    eventView event index = eventView event' index ↔ event.Agrees event' := by
  constructor
  · intro h
    simp only [eventView, Document.object.injEq, List.cons.injEq, Prod.mk.injEq, Document.string.injEq,
      Document.array.injEq, stateDocument_inj, memoryChangeDocument_injective.list_map.eq_iff,
      true_and, and_true] at h
    obtain ⟨-, -, -, -, hinstruction, hbefore, hafter, -, -, hmemory, -, herror⟩ := h
    exact ⟨hbefore, hafter, hinstruction, hmemory, herror⟩
  · rintro ⟨hbefore, hafter, hinstruction, hmemory, herror⟩
    -- the changes of registers and flags follow from the states
    have hregisters : event.changedRegisters = event'.changedRegisters := by
      have hchange : event.registerChange = event'.registerChange := by
        funext reg
        rw [TraceEvent.registerChange, TraceEvent.registerChange, ← hbefore, ← hafter]
      rw [TraceEvent.changedRegisters, hchange, TraceEvent.changedRegisters]
    have hflags : event.changedFlags = event'.changedFlags := by
      have hchange : event.flagChange = event'.flagChange := by
        funext name bit
        rw [TraceEvent.flagChange, TraceEvent.flagChange, ← hbefore, ← hafter]
      rw [TraceEvent.changedFlags, hchange, TraceEvent.changedFlags]
    have hpc : event.before.pc = event'.before.pc := by rw [← hbefore]
    have hpc' : event.after.pc = event'.after.pc := by rw [← hafter]
    have hsp : event.before.sp = event'.before.sp := by rw [← hbefore]
    have hsp' : event.after.sp = event'.after.sp := by rw [← hafter]
    rw [eventView, eventView, hpc, hpc', hsp, hsp', hinstruction, stateDocument_inj.mpr hbefore,
      stateDocument_inj.mpr hafter, hregisters, hflags, hmemory, herror]

/-- Lists are written the same way, with their indices, exactly when their elements are. -/
theorem map_zipIdx_eq_iff {α β : Type} {write : α → ℕ → β} {R : α → α → Prop}
    (h : ∀ a a' index, write a index = write a' index ↔ R a a') (l l' : List α) (start : ℕ) :
    (l.zipIdx start).map (fun entry => write entry.1 entry.2)
        = (l'.zipIdx start).map (fun entry => write entry.1 entry.2)
      ↔ List.Forall₂ R l l' := by
  induction l generalizing l' start with
  | nil =>
    cases l' with
    | nil => exact ⟨fun _ => .nil, fun _ => rfl⟩
    | cons a' l' =>
      rw [List.forall₂_nil_left_iff]
      exact ⟨fun heq => (nomatch heq), fun heq => (nomatch heq)⟩
  | cons a l ih =>
    cases l' with
    | nil =>
      rw [List.forall₂_nil_right_iff]
      exact ⟨fun heq => (nomatch heq), fun heq => (nomatch heq)⟩
    | cons a' l' =>
      rw [List.zipIdx_cons, List.zipIdx_cons, List.map_cons, List.map_cons, List.cons.injEq, h, ih,
        List.forall₂_cons]

/-- The view of a trace determines its mode and its events, one by one. -/
theorem traceView_inj {events events' : List TraceEvent} {metadata metadata' : TraceJsonMetadata} :
    traceView events metadata = traceView events' metadata'
      ↔ metadata.execution_mode = metadata'.execution_mode
        ∧ List.Forall₂ TraceEvent.Agrees events events' := by
  rw [← map_zipIdx_eq_iff (fun _ _ => eventView_inj) events events' 0]
  constructor
  · intro h
    simp only [traceView, Document.object.injEq, List.cons.injEq, Prod.mk.injEq, Document.string.injEq,
      Document.array.injEq, true_and, and_true] at h
    exact ⟨h.1, h.2.2⟩
  · rintro ⟨hmode, hevents⟩
    have hlength : events.length = events'.length := by
      have := congrArg List.length hevents
      rwa [List.length_map, List.length_map, List.length_zipIdx, List.length_zipIdx] at this
    rw [traceView, traceView, hmode, hevents, hlength]

/-! ## Round trips -/

section Written

variable {texts texts' : EventTexts} {events events' : List TraceEvent}
  {metadata metadata' : TraceJsonMetadata}

/-- What is written is read back: the text parses, to the value of the document, and every check of a
single-process trace passes. -/
theorem toJson_reads_back (texts : EventTexts) (metadata : TraceJsonMetadata)
    (h : ∀ event ∈ events, event.Representable) (hlength : ZeroCpu.Representable events.length) :
    parse (toJson texts events metadata) = .ok (traceDocument texts events metadata).value ∧
      ∀ label, validateTraceDocument (traceDocument texts events metadata).value label
        = .ok .SingleProcess := by
  rw [toJson_eq]
  exact ⟨parse_text (traceDocument_readable texts h hlength metadata),
    validate_traceDocument texts events metadata⟩

/-- Two written traces are strictly equal exactly when they are the same text. -/
theorem compareText_toJson_strict (h : ∀ event ∈ events, event.Representable)
    (hlength : ZeroCpu.Representable events.length) (h' : ∀ event ∈ events', event.Representable)
    (hlength' : ZeroCpu.Representable events'.length) :
    ∃ result, compareText (toJson texts events metadata) (toJson texts' events' metadata') ⟨true⟩
        = .ok result ∧
      (result.equal = true
        ↔ toJson texts events metadata = toJson texts' events' metadata') := by
  have hreadable := traceDocument_readable texts h hlength metadata
  have hreadable' := traceDocument_readable texts' h' hlength' metadata'
  have halike := traceDocument_alike texts texts' events events' metadata metadata'
  have hview (document : Document) : comparedView ⟨true⟩ document.value .SingleProcess
      = .ok document.value := rfl
  obtain ⟨result, hresult, hequal⟩ := compareText_text hreadable hreadable'
    (validate_traceDocument texts events metadata) (validate_traceDocument texts' events' metadata')
    (hview _) (hview _) halike.eq_of_value
  rw [toJson_eq, toJson_eq]
  refine ⟨result, hresult, hequal.trans ⟨fun heq => by rw [heq], fun heq => ?_⟩⟩
  -- the same text is parsed to the same value
  apply halike.eq_of_value
  apply Except.ok.inj
  rw [← parse_text hreadable, heq, parse_text hreadable']

/-- Two written traces are architecturally equal exactly when they name the same mode and tell of the
same steps, whatever they say about a step in words, who wrote them and where the program was loaded
from. -/
theorem compareText_toJson_architectural (h : ∀ event ∈ events, event.Representable)
    (hlength : ZeroCpu.Representable events.length) (h' : ∀ event ∈ events', event.Representable)
    (hlength' : ZeroCpu.Representable events'.length) :
    ∃ result, compareText (toJson texts events metadata) (toJson texts' events' metadata') ⟨false⟩
        = .ok result ∧
      (result.equal = true ↔ metadata.execution_mode = metadata'.execution_mode
        ∧ List.Forall₂ TraceEvent.Agrees events events') := by
  rw [toJson_eq, toJson_eq, ← traceView_inj]
  exact compareText_text (traceDocument_readable texts h hlength metadata)
    (traceDocument_readable texts' h' hlength' metadata')
    (validate_traceDocument texts events metadata) (validate_traceDocument texts' events' metadata')
    (singleProcessArchitecturalView_traceDocument texts events metadata)
    (singleProcessArchitecturalView_traceDocument texts' events' metadata')
    (traceView_alike events events' metadata metadata').eq_of_value

end Written

/-- A step that copies a negative word into a register and one byte into memory. -/
def copies : TraceEvent where
  before := ⟨fun _ => -1, ⟨[0, 7]⟩, ⟨0⟩, .user, 3, 2, false, false, []⟩
  instruction := ⟨.MOV, .register .R1, .register .R0⟩
  after := ⟨RegisterFile.set (fun _ => -1) .R1 5, ⟨[0, 8]⟩, ⟨64⟩, .user, 4, 2, false, true, "\"late\"\n"⟩
  errorMessage := "\"late\"\n"

theorem copies_representable : ∀ event ∈ [copies], event.Representable := by decide

/-- Texts that say the same of every step. -/
def sameTexts (text : Str) : EventTexts :=
  ⟨fun _ => text, fun _ => text, fun _ => text, fun _ => text, fun _ => text, fun _ => text,
    fun _ => text, fun _ => text, fun _ => text⟩

/-- A trace of one event with a line break in its texts. -/
theorem toJson_reads_back_copies :
    parse (toJson (sameTexts "step\n") [copies] {})
      = .ok (traceDocument (sameTexts "step\n") [copies] {}).value :=
  (toJson_reads_back (sameTexts "step\n") {} copies_representable (by decide)).1

/-- A trace is equal to itself. -/
theorem compareText_toJson_strict_copies :
    ∃ result, compareText (toJson (sameTexts "step") [copies] {}) (toJson (sameTexts "step") [copies] {})
      ⟨true⟩ = .ok result ∧ result.equal = true := by
  obtain ⟨result, hresult, hequal⟩ := compareText_toJson_strict copies_representable (by decide)
    copies_representable (by decide)
  exact ⟨result, hresult, hequal.mpr rfl⟩

/-- Other texts do not matter in the architectural mode. -/
theorem compareText_toJson_architectural_copies :
    ∃ result, compareText (toJson (sameTexts "step") [copies] {}) (toJson (sameTexts "stage") [copies] {})
      ⟨false⟩ = .ok result ∧ result.equal = true := by
  obtain ⟨result, hresult, hequal⟩ := compareText_toJson_architectural copies_representable (by decide)
    copies_representable (by decide)
  exact ⟨result, hresult, hequal.mpr ⟨rfl, .cons ⟨rfl, rfl, rfl, rfl, rfl⟩ .nil⟩⟩

end TraceJsonWriter

end ZeroCpu
