import ZeroCpu.System.JsonWriter
import ZeroCpu.Trace.JsonReading

/-!
# Reading the trace of a multi-process run

Reference: `src/system/MultiProcessTraceJsonWriter.cpp`, `src/trace/TraceJsonDiff.cpp`.

What is written of a run is read back, checked and compared, as for the trace of one CPU. The section
of software interrupts is only there for a run that has some; the reader takes its absence for an
empty one.
-/

namespace ZeroCpu.Sys

open Library Kernel Json Json.Document

/-! ## Numbers in range -/

/-- The sizes of a load fit the reader. -/
structure ProcessLoad.Representable (load : ProcessLoad) : Prop where
  code_end_exclusive : ZeroCpu.Representable load.code_end_exclusive
  data_base : ZeroCpu.Representable load.data_base
  data_size : ZeroCpu.Representable load.data_size

/-- The violations of a report are in range, and so is their number. -/
structure MultiProcessInvariantReport.Representable (report : MultiProcessInvariantReport) : Prop where
  count : ZeroCpu.Representable report.violationCount
  violations : ∀ violation ∈ report.violations,
    ZeroCpu.Representable violation.lifecycle_step ∧ ZeroCpu.Representable violation.pid

/-- The counters, addresses and PIDs of a result fit `std::int64_t`. -/
structure MultiProcessRunResult.Representable (result : MultiProcessRunResult) : Prop where
  lifecycle_steps : ZeroCpu.Representable result.lifecycle_steps
  process_count : ZeroCpu.Representable result.process_count
  termination_count : ZeroCpu.Representable result.termination_count
  fault_count : ZeroCpu.Representable result.fault_count
  preemption_count : ZeroCpu.Representable result.preemption_count
  context_switch_count : ZeroCpu.Representable result.context_switch_count
  execution_count : ZeroCpu.Representable result.execution_trace.length
  executions : ∀ record ∈ result.execution_trace, ZeroCpu.Representable record.lifecycle_step
    ∧ ZeroCpu.Representable record.pid ∧ record.event.Representable
  interrupt_count : ZeroCpu.Representable result.software_interrupts.length
  interrupts : ∀ record ∈ result.software_interrupts, ZeroCpu.Representable record.lifecycle_step
    ∧ ZeroCpu.Representable record.pid
  switch_count : ZeroCpu.Representable result.context_switches.length
  switches : ∀ record ∈ result.context_switches, ZeroCpu.Representable record.lifecycle_step
    ∧ ZeroCpu.Representable record.from_pid ∧ ZeroCpu.Representable record.to_pid
  processes : ∀ process ∈ result.processes, ZeroCpu.Representable process.pid
    ∧ ZeroCpu.Representable process.final_context.pc ∧ ZeroCpu.Representable process.final_context.sp

/-- The summaries and loads agree on everything but where the source of the process is. -/
structure ProcessRunSummary.Agrees (process : ProcessRunSummary) (load : ProcessLoad)
    (process' : ProcessRunSummary) (load' : ProcessLoad) : Prop where
  pid : process.pid = process'.pid
  state : process.state = process'.state
  has_exit_code : process.has_exit_code = process'.has_exit_code
  exit_code : process.exit_code = process'.exit_code
  termination_kind : process.termination_kind = process'.termination_kind
  termination_message : process.termination_message = process'.termination_message
  pc : process.final_context.pc = process'.final_context.pc
  sp : process.final_context.sp = process'.final_context.sp
  load : { load with source_name := load'.source_name } = load'

/-- The violations have the same code, at the same step of the same process. -/
def MultiProcessInvariantViolation.Agrees (violation violation' : MultiProcessInvariantViolation) :
    Prop :=
  { violation with message := violation'.message } = violation'

/-- The records are of the same step of the same process. -/
structure ProcessExecutionTraceRecord.Agrees (record record' : ProcessExecutionTraceRecord) : Prop where
  lifecycle_step : record.lifecycle_step = record'.lifecycle_step
  pid : record.pid = record'.pid
  event : record.event.Agrees record'.event

/-- The results tell of the same run. -/
structure MultiProcessRunResult.Agrees (result : MultiProcessRunResult) (load : ℕ → ProcessLoad)
    (result' : MultiProcessRunResult) (load' : ℕ → ProcessLoad) : Prop where
  runtime_state : result.runtime_state = result'.runtime_state
  step_limit_reached : result.step_limit_reached = result'.step_limit_reached
  lifecycle_steps : result.lifecycle_steps = result'.lifecycle_steps
  process_count : result.process_count = result'.process_count
  termination_count : result.termination_count = result'.termination_count
  fault_count : result.fault_count = result'.fault_count
  preemption_count : result.preemption_count = result'.preemption_count
  context_switch_count : result.context_switch_count = result'.context_switch_count
  execution_trace : List.Forall₂ ProcessExecutionTraceRecord.Agrees result.execution_trace
    result'.execution_trace
  software_interrupts : result.software_interrupts = result'.software_interrupts
  context_switches : result.context_switches = result'.context_switches
  processes : List.Forall₂
    (fun entry entry' => entry.1.Agrees (load entry.2) entry'.1 (load' entry'.2))
    result.processes.zipIdx result'.processes.zipIdx

instance MultiProcessRunResult.Representable.decidable (result : MultiProcessRunResult) :
    Decidable result.Representable :=
  decidable_of_iff
    (ZeroCpu.Representable result.lifecycle_steps ∧ ZeroCpu.Representable result.process_count
      ∧ ZeroCpu.Representable result.termination_count ∧ ZeroCpu.Representable result.fault_count
      ∧ ZeroCpu.Representable result.preemption_count
      ∧ ZeroCpu.Representable result.context_switch_count
      ∧ ZeroCpu.Representable result.execution_trace.length
      ∧ (∀ record ∈ result.execution_trace, ZeroCpu.Representable record.lifecycle_step
        ∧ ZeroCpu.Representable record.pid ∧ record.event.Representable)
      ∧ ZeroCpu.Representable result.software_interrupts.length
      ∧ (∀ record ∈ result.software_interrupts, ZeroCpu.Representable record.lifecycle_step
        ∧ ZeroCpu.Representable record.pid)
      ∧ ZeroCpu.Representable result.context_switches.length
      ∧ (∀ record ∈ result.context_switches, ZeroCpu.Representable record.lifecycle_step
        ∧ ZeroCpu.Representable record.from_pid ∧ ZeroCpu.Representable record.to_pid)
      ∧ ∀ process ∈ result.processes, ZeroCpu.Representable process.pid
        ∧ ZeroCpu.Representable process.final_context.pc
        ∧ ZeroCpu.Representable process.final_context.sp)
    ⟨fun ⟨a, b, c, d, e, f, g, h, i, j, k, l, m⟩ => ⟨a, b, c, d, e, f, g, h, i, j, k, l, m⟩,
      fun ⟨a, b, c, d, e, f, g, h, i, j, k, l, m⟩ => ⟨a, b, c, d, e, f, g, h, i, j, k, l, m⟩⟩

namespace MultiProcessTraceJsonWriter

open TraceJsonWriter (array_readable eventDocument eventDocument_readable eventView isArray_array
  elements_array not_miscounts traceEventArchitecturalView_eventDocument)

/-! ## Keys -/

/-- The keys of a violation. -/
def violationKeys : List Str := ["code", "message", "lifecycle_step", "pid"]

theorem nodup_violationKeys : violationKeys.Nodup := by decide

/-- The fields of a violation that the view selects are distinct. -/
theorem nodup_violationFields : violationFields.Nodup := by decide

/-- The keys of a report. -/
def reportKeys : List Str := ["passed", "violation_count", "violations"]

theorem nodup_reportKeys : reportKeys.Nodup := by decide

/-- The keys of an execution record. -/
def executionKeys : List Str := ["lifecycle_step", "pid", "event"]

theorem nodup_executionKeys : executionKeys.Nodup := by decide

/-- The fields of an interrupt that the view selects are distinct. -/
theorem nodup_softwareInterruptFields : softwareInterruptFields.Nodup := by decide

/-- The fields of a context switch that the view selects are distinct. -/
theorem nodup_contextSwitchFields : contextSwitchFields.Nodup := by decide

/-- The keys of a process. -/
def processKeys : List Str :=
  ["pid", "source_name", "state", "has_exit_code", "exit_code", "termination_kind",
    "termination_message", "pc", "sp", "has_executable_image", "code_end_exclusive", "data_base",
    "data_size"]

theorem nodup_processKeys : processKeys.Nodup := by decide

/-- The fields of a process that the view selects are distinct. -/
theorem nodup_processFields : processFields.Nodup := by decide

/-- The keys of a run before those about interrupts. -/
def headKeys : List Str :=
  ["schema", "schema_version", "producer", "producer_version", "mode", "runtime_state",
    "step_limit_reached", "lifecycle_steps", "process_count", "termination_count", "fault_count",
    "preemption_count", "context_switch_count", "invariants", "execution_event_count",
    "execution_trace"]

/-- The keys about interrupts, which a run without any leaves out. -/
def interruptKeys : List Str := ["software_interrupt_event_count", "software_interrupts"]

/-- The keys of a run behind those about interrupts. -/
def tailKeys : List Str := ["context_switch_event_count", "context_switches", "processes"]

/-- The keys of a run are distinct, with interrupts or without. -/
theorem nodup_runKeys (withInterrupts : Bool) :
    (headKeys ++ ((if withInterrupts then interruptKeys else []) ++ tailKeys)).Nodup := by
  cases withInterrupts <;> decide

/-! ## Documents in range -/

/-- A violation whose integers fit can be read back. -/
theorem violationDocument_readable {violation : MultiProcessInvariantViolation}
    (h : ZeroCpu.Representable violation.lifecycle_step ∧ ZeroCpu.Representable violation.pid) :
    (violationDocument violation).Readable := by
  refine .object nodup_violationKeys ?_
  simp only [List.forall_mem_cons]
  exact ⟨.string _, .string _, .size h.1, .size h.2, List.forall_mem_nil _⟩

/-- A report whose integers fit can be read back. -/
theorem reportDocument_readable {report : MultiProcessInvariantReport} (h : report.Representable) :
    (reportDocument report).Readable := by
  refine .object nodup_reportKeys ?_
  simp only [List.forall_mem_cons]
  exact ⟨.boolean _, .size h.count,
    array_readable fun violation hmem => violationDocument_readable (h.violations violation hmem),
    List.forall_mem_nil _⟩

/-- An interrupt record whose integers fit can be read back. -/
theorem interruptDocument_readable {record : ProcessSoftwareInterruptTraceRecord}
    (h : ZeroCpu.Representable record.lifecycle_step ∧ ZeroCpu.Representable record.pid) :
    (interruptDocument record).Readable := by
  have hvector : ZeroCpu.Representable record.observation.vector.toNat := by
    have := record.observation.vector.toNat_lt
    rw [ZeroCpu.Representable, int64Max]
    omega
  refine .object nodup_softwareInterruptFields ?_
  simp only [List.forall_mem_cons]
  exact ⟨.size h.1, .size h.2, .size hvector, .boolean _, .word _, .boolean _, .word _, .boolean _,
    .word _, .boolean _, .word _, .boolean _, .word _, .string _, .word _, List.forall_mem_nil _⟩

/-- A context switch whose integers fit can be read back. -/
theorem switchDocument_readable {record : ProcessContextSwitchTraceRecord}
    (h : ZeroCpu.Representable record.lifecycle_step ∧ ZeroCpu.Representable record.from_pid
      ∧ ZeroCpu.Representable record.to_pid) : (switchDocument record).Readable := by
  refine .object nodup_contextSwitchFields ?_
  simp only [List.forall_mem_cons]
  exact ⟨.size h.1, .size h.2.1, .size h.2.2, .boolean _, .boolean _, List.forall_mem_nil _⟩

/-- A process whose integers fit can be read back. -/
theorem processDocument_readable {process : ProcessRunSummary} {load : ProcessLoad}
    (h : ZeroCpu.Representable process.pid ∧ ZeroCpu.Representable process.final_context.pc
      ∧ ZeroCpu.Representable process.final_context.sp) (hload : load.Representable) :
    (processDocument process load).Readable := by
  refine .object nodup_processKeys ?_
  simp only [List.forall_mem_cons]
  exact ⟨.size h.1, .string _, .string _, .boolean _, .word _, .string _, .string _, .size h.2.1,
    .size h.2.2, .boolean _, .size hload.code_end_exclusive, .size hload.data_base,
    .size hload.data_size, List.forall_mem_nil _⟩

section Result

variable {result result' : MultiProcessRunResult} {load load' : ℕ → ProcessLoad}
  {report report' : MultiProcessInvariantReport}

/-- The events of a run whose integers fit can be read back. -/
theorem eventDocument_readable_of_mem (texts : EventTexts) (h : result.Representable)
    {entry : ProcessExecutionTraceRecord × ℕ} (hentry : entry ∈ result.execution_trace.zipIdx) :
    (eventDocument texts entry.1.event entry.2).Readable := by
  obtain ⟨record, index⟩ := entry
  have hindex : index < result.execution_trace.length := by
    have := List.snd_lt_of_mem_zipIdx hentry
    omega
  have hcount := h.execution_count
  refine eventDocument_readable texts (h.executions record (List.fst_mem_of_mem_zipIdx hentry)).2.2 ?_
  rw [ZeroCpu.Representable] at hcount ⊢
  omega

/-- The execution records of a run whose integers fit can be read back. -/
theorem executionDocument_readable (texts : EventTexts) (h : result.Representable)
    {entry : ProcessExecutionTraceRecord × ℕ} (hentry : entry ∈ result.execution_trace.zipIdx) :
    (executionDocument texts entry.1 entry.2).Readable := by
  have hrecord := h.executions entry.1 (List.fst_mem_of_mem_zipIdx hentry)
  refine .object nodup_executionKeys ?_
  simp only [List.forall_mem_cons]
  exact ⟨.size hrecord.1, .size hrecord.2.1, eventDocument_readable_of_mem texts h hentry,
    List.forall_mem_nil _⟩

/-- The members of a run are written under their keys. -/
theorem runMembers_keys (texts : EventTexts) (result : MultiProcessRunResult) (load : ℕ → ProcessLoad)
    (metadata : MultiProcessTraceJsonMetadata) (report : MultiProcessInvariantReport) :
    (runMembers texts result load metadata report).map Prod.fst
      = headKeys ++ ((if !result.software_interrupts.isEmpty then interruptKeys else []) ++ tailKeys) := by
  rw [runMembers, List.map_append, List.map_append, interruptMembers]
  cases result.software_interrupts.isEmpty <;> rfl

/-- A run whose integers fit can be read back. -/
theorem runDocument_readable (texts : EventTexts) (h : result.Representable)
    (hload : ∀ index, (load index).Representable) (metadata : MultiProcessTraceJsonMetadata)
    (hreport : report.Representable) : (runDocument texts result load metadata report).Readable := by
  refine .object (runMembers_keys texts result load metadata report ▸ nodup_runKeys _) ?_
  rw [runMembers, List.forall_mem_append, List.forall_mem_append]
  refine ⟨?_, ?_, ?_⟩
  · simp only [headMembers, List.forall_mem_cons]
    exact ⟨.string _, .size (by decide), .string _, .string _, .string _, .string _, .boolean _,
      .size h.lifecycle_steps, .size h.process_count, .size h.termination_count, .size h.fault_count,
      .size h.preemption_count, .size h.context_switch_count, reportDocument_readable hreport,
      .size h.execution_count,
      array_readable fun entry hentry => executionDocument_readable texts h hentry,
      List.forall_mem_nil _⟩
  · rw [interruptMembers]
    split_ifs
    · exact List.forall_mem_nil _
    · simp only [List.forall_mem_cons]
      exact ⟨.size h.interrupt_count, array_readable fun record hrecord =>
        interruptDocument_readable (h.interrupts record hrecord), List.forall_mem_nil _⟩
  · simp only [tailMembers, List.forall_mem_cons]
    exact ⟨.size h.switch_count,
      array_readable fun record hrecord => switchDocument_readable (h.switches record hrecord),
      array_readable fun entry hentry => processDocument_readable
        (h.processes entry.1 (List.fst_mem_of_mem_zipIdx hentry)) (hload entry.2),
      List.forall_mem_nil _⟩

end Result

/-! ## Checks -/

section Fields

variable (texts : EventTexts) (result : MultiProcessRunResult) (load : ℕ → ProcessLoad)
  (metadata : MultiProcessTraceJsonMetadata) (report : MultiProcessInvariantReport)

/-- A member is looked up in the three parts, one after the other. -/
theorem lookup_runMembers (name : Str) :
    (runMembers texts result load metadata report).lookup name
      = ((headMembers texts result metadata report).lookup name).or
        (((interruptMembers result).lookup name).or ((tailMembers result load).lookup name)) := by
  rw [runMembers, List.lookup_append, List.lookup_append]

/-- A member of the first part is found under its key. -/
theorem requiredField_head {name : Str} {document : Document}
    (h : (headMembers texts result metadata report).lookup name = some document) :
    requiredField (runDocument texts result load metadata report).value name
      = .ok document.value := by
  apply requiredField_value (nodup_runKeys _) (runMembers_keys texts result load metadata report)
  rw [lookup_runMembers, h, Option.some_or]

/-- A member of the last part is found under its key. -/
theorem requiredField_tail {name : Str} {document : Document}
    (hhead : (headMembers texts result metadata report).lookup name = none)
    (hinterrupts : name ∉ interruptKeys)
    (h : (tailMembers result load).lookup name = some document) :
    requiredField (runDocument texts result load metadata report).value name
      = .ok document.value := by
  have hnone : (interruptMembers result).lookup name = none := by
    rw [List.lookup_eq_none_iff]
    intro field hfield
    rw [bne_iff_ne]
    rintro rfl
    rw [interruptMembers] at hfield
    split_ifs at hfield
    · exact List.not_mem_nil hfield
    · exact hinterrupts (List.mem_map_of_mem hfield)
  apply requiredField_value (nodup_runKeys _) (runMembers_keys texts result load metadata report)
  rw [lookup_runMembers, hhead, hnone, h, Option.none_or, Option.none_or]

/-- The execution records are found under their key. -/
theorem requiredField_executionTrace :
    requiredField (runDocument texts result load metadata report).value "execution_trace"
      = .ok (Document.array (result.execution_trace.zipIdx.map fun entry =>
        executionDocument texts entry.1 entry.2)).value :=
  requiredField_head texts result load metadata report rfl

/-- The context switches are found under their key. -/
theorem requiredField_contextSwitches :
    requiredField (runDocument texts result load metadata report).value "context_switches"
      = .ok (Document.array (result.context_switches.map switchDocument)).value :=
  requiredField_tail texts result load metadata report rfl (by decide) rfl

/-- The processes are found under their key. -/
theorem requiredField_processes :
    requiredField (runDocument texts result load metadata report).value "processes"
      = .ok (Document.array (result.processes.zipIdx.map fun entry =>
        processDocument entry.1 (load entry.2))).value :=
  requiredField_tail texts result load metadata report rfl (by decide) rfl

/-- The section of software interrupts, as the reader finds it. -/
def interruptSection (result : MultiProcessRunResult) : Option Document :=
  if result.software_interrupts.isEmpty then none
  else some (.array (result.software_interrupts.map interruptDocument))

/-- The interrupt records are found when the run has them. -/
theorem optionalField_softwareInterrupts :
    optionalField (runDocument texts result load metadata report).value "software_interrupts"
      = .ok ((interruptSection result).map value) := by
  rw [runDocument, optionalField_value (nodup_runKeys _) (runMembers_keys texts result load metadata report),
    lookup_runMembers, interruptMembers, interruptSection]
  split_ifs <;> rfl

/-- The number of software interrupts, as the reader finds it. -/
def interruptCount (result : MultiProcessRunResult) : Option Document :=
  if result.software_interrupts.isEmpty then none
  else some (.number result.software_interrupts.length)

/-- The number of interrupts is found when the run has them. -/
theorem optionalField_softwareInterruptCount :
    optionalField (runDocument texts result load metadata report).value "software_interrupt_event_count"
      = .ok ((interruptCount result).map value) := by
  rw [runDocument, optionalField_value (nodup_runKeys _) (runMembers_keys texts result load metadata report),
    lookup_runMembers, interruptMembers, interruptCount]
  split_ifs <;> rfl

/-- The number of interrupts of a run that has them. -/
theorem requiredField_softwareInterruptCount (h : result.software_interrupts.isEmpty = false) :
    requiredField (runDocument texts result load metadata report).value "software_interrupt_event_count"
      = .ok (Document.number result.software_interrupts.length).value := by
  apply requiredField_value (nodup_runKeys _) (runMembers_keys texts result load metadata report)
  rw [lookup_runMembers, interruptMembers, if_neg (ne_true_of_eq_false h)]
  rfl

/-- The part about interrupts is accepted. -/
theorem validateSoftwareInterrupts_run (label : Str) :
    validateSoftwareInterrupts (runDocument texts result load metadata report).value label
      ((interruptSection result).map value) = .ok () := by
  rw [interruptSection]
  split_ifs with h
  · rfl
  · have hcount : requiredNumber (runDocument texts result load metadata report).value
        "software_interrupt_event_count" = .ok (result.software_interrupts.length : ℤ) := by
      rw [requiredNumber, requiredField_softwareInterruptCount _ _ _ _ _ (eq_false_of_ne_true h)]
      rfl
    rw [Option.map_some, validateSoftwareInterrupts, reject_of_not (not_not.mpr (isArray_array _)),
      ok_bind, hcount, ok_bind, reject_of_not (not_miscounts (List.length_map _).symm)]

/-- A number of the first part is found under its key. -/
theorem requiredNumber_head {name : Str} {number : ℤ}
    (h : (headMembers texts result metadata report).lookup name = some (.number number)) :
    requiredNumber (runDocument texts result load metadata report).value name = .ok number := by
  rw [requiredNumber, requiredField_head texts result load metadata report h]
  rfl

/-- What the writer writes is a multi-process trace to the reader. -/
theorem validate_runDocument (hcount : result.process_count = result.processes.length) (label : Str) :
    validateTraceDocument (runDocument texts result load metadata report).value label
      = .ok .MultiProcess := by
  set root := (runDocument texts result load metadata report).value with hroot
  have hobject : root.isObject = true := rfl
  have hschema : requiredString root "schema" = .ok "zero_cpu_multiprocess_trace" := by
    rw [requiredString, hroot, requiredField_head texts result load metadata report rfl]
    rfl
  have hversion : requiredNumber root "schema_version" = .ok 1 :=
    requiredNumber_head texts result load metadata report rfl
  have hexecutions : requiredNumber root "execution_event_count" = .ok result.execution_trace.length :=
    requiredNumber_head texts result load metadata report rfl
  have hswitches : requiredNumber root "context_switch_event_count"
      = .ok result.context_switches.length := by
    rw [requiredNumber, hroot,
      requiredField_tail texts result load metadata report rfl (by decide) rfl]
    rfl
  have hprocesses : requiredNumber root "process_count" = .ok result.process_count :=
    requiredNumber_head texts result load metadata report rfl
  have hinvariants : requiredField root "invariants" = .ok (reportDocument report).value :=
    requiredField_head texts result load metadata report rfl
  -- The interrupts and their number are written together or not at all.
  have htogether : ¬ (((interruptSection result).map value).isNone
      ≠ ((interruptCount result).map value).isNone) := by
    rw [interruptSection, interruptCount]
    split_ifs <;> exact not_not.mpr rfl
  rw [validateTraceDocument, reject_of_not (not_not.mpr hobject), ok_bind, hschema, ok_bind, hversion,
    ok_bind, if_neg (by decide), if_pos rfl, validateMultiProcess,
    reject_of_not (not_not.mpr rfl), ok_bind, requiredField_executionTrace, ok_bind,
    requiredField_contextSwitches, ok_bind, requiredField_processes, ok_bind,
    reject_of_not (by rw [isArray_array, isArray_array, isArray_array]; decide), ok_bind, hexecutions,
    ok_bind, hswitches, ok_bind, hprocesses, ok_bind,
    reject_of_not (not_miscounts (by rw [List.length_map, List.length_zipIdx])), ok_bind,
    reject_of_not (not_miscounts (List.length_map _).symm), ok_bind,
    reject_of_not (not_miscounts (by rw [List.length_map, List.length_zipIdx, hcount])), ok_bind,
    optionalField_softwareInterrupts, ok_bind, optionalField_softwareInterruptCount, ok_bind,
    reject_of_not htogether, ok_bind, validateSoftwareInterrupts_run, ok_bind, hinvariants]
  rfl

end Fields

/-! ## The architectural view -/

/-- The architectural view of a violation, which leaves out the message. -/
def violationView (violation : MultiProcessInvariantViolation) : Document := .object [
  ("code", .string violation.code), ("lifecycle_step", .number violation.lifecycle_step),
  ("pid", .number violation.pid)]

/-- The architectural view of a report. -/
def reportView (report : MultiProcessInvariantReport) : Document := .object [
  ("passed", .boolean report.passed), ("violation_count", .number report.violationCount),
  ("violations", .array (report.violations.map violationView))]

/-- The architectural view of an execution record. -/
def executionView (record : ProcessExecutionTraceRecord) (index : ℕ) : Document := .object [
  ("lifecycle_step", .number record.lifecycle_step), ("pid", .number record.pid),
  ("event", eventView record.event index)]

/-- What the architectural view keeps of a process: everything but where its source is. -/
def processView (process : ProcessRunSummary) (load : ProcessLoad) : Document := .object [
  ("pid", .number process.pid), ("state", .string (processStateToString process.state)),
  ("has_exit_code", .boolean process.has_exit_code), ("exit_code", .number process.exit_code.toInt),
  ("termination_kind", .string (processTerminationKindToString process.termination_kind)),
  ("termination_message", .string process.termination_message),
  ("pc", .number process.final_context.pc), ("sp", .number process.final_context.sp),
  ("has_executable_image", .boolean load.has_executable_image),
  ("code_end_exclusive", .number load.code_end_exclusive), ("data_base", .number load.data_base),
  ("data_size", .number load.data_size)]

section View

variable (texts : EventTexts) (result : MultiProcessRunResult) (load : ℕ → ProcessLoad)
  (metadata : MultiProcessTraceJsonMetadata) (report : MultiProcessInvariantReport)

/-- What the architectural view keeps of a run. -/
def runView : Document := .object [
  ("schema", .string "zero_cpu_multiprocess_trace"), ("schema_version", .number kSchemaVersion),
  ("mode", .string metadata.execution_mode),
  ("runtime_state", .string (processRuntimeStateToString result.runtime_state)),
  ("step_limit_reached", .boolean result.step_limit_reached),
  ("lifecycle_steps", .number result.lifecycle_steps), ("process_count", .number result.process_count),
  ("termination_count", .number result.termination_count), ("fault_count", .number result.fault_count),
  ("preemption_count", .number result.preemption_count),
  ("context_switch_count", .number result.context_switch_count),
  ("execution_event_count", .number result.execution_trace.length),
  ("context_switch_event_count", .number result.context_switches.length),
  ("software_interrupt_event_count", .number result.software_interrupts.length),
  ("invariants", reportView report),
  ("execution_trace", .array (result.execution_trace.zipIdx.map fun entry =>
    executionView entry.1 entry.2)),
  ("software_interrupts", .array (result.software_interrupts.map interruptDocument)),
  ("context_switches", .array (result.context_switches.map switchDocument)),
  ("processes", .array (result.processes.zipIdx.map fun entry =>
    processView entry.1 (load entry.2)))]

/-- The view that the reader takes of a written report. -/
theorem multiProcessInvariantArchitecturalView_reportDocument :
    multiProcessInvariantArchitecturalView (reportDocument report).value
      = .ok (reportView report).value := by
  have hviolations : requiredField (reportDocument report).value "violations"
      = .ok (Document.array (report.violations.map violationDocument)).value :=
    requiredField_value nodup_reportKeys (by rfl) rfl
  have hfields : ∀ name ∈ violationFields, name ∈ violationKeys := by decide
  have hview : (valuesOf (report.violations.map violationDocument)).mapM
      (fun violation => selectObjectFields violation violationFields)
      = .ok (valuesOf (report.violations.map violationView)) :=
    mapM_valuesOf fun violation _ => selectObjectFields_value nodup_violationKeys (by rfl) hfields
  have hkept : ∀ name ∈ (["passed", "violation_count"] : List Str), name ∈ reportKeys := by
    decide
  rw [multiProcessInvariantArchitecturalView, hviolations, ok_bind,
    reject_of_not (not_not.mpr (isArray_array _)), ok_bind, elements_array, hview, ok_bind,
    reportDocument, emplaceFields_value nodup_reportKeys (by rfl) hkept, ok_bind]
  rfl

/-- The view that the reader takes of a written execution record. -/
theorem executionRecordView_executionDocument (record : ProcessExecutionTraceRecord) (index : ℕ) :
    executionRecordView (executionDocument texts record index).value
      = .ok (executionView record index).value := by
  have hevent : requiredField (executionDocument texts record index).value "event"
      = .ok (eventDocument texts record.event index).value :=
    requiredField_value nodup_executionKeys (by rfl) rfl
  have hkept : ∀ name ∈ (["lifecycle_step", "pid"] : List Str), name ∈ executionKeys := by
    decide
  rw [executionRecordView, hevent, executionDocument,
    emplaceFields_value nodup_executionKeys (by rfl) hkept, ok_bind, ok_bind,
    traceEventArchitecturalView_eventDocument, ok_bind]
  rfl

/-- Without the section, the reader takes no software interrupts for granted. -/
theorem mapM_interruptSection :
    ((((interruptSection result).map value).map JsonValue.elements).getD []).mapM
      (fun record => selectObjectFields record softwareInterruptFields)
      = .ok (valuesOf (result.software_interrupts.map interruptDocument)) := by
  have hfields : ∀ name ∈ softwareInterruptFields, name ∈ softwareInterruptFields := fun _ h => h
  have helements : (((interruptSection result).map value).map JsonValue.elements).getD []
      = valuesOf (result.software_interrupts.map interruptDocument) := by
    rw [interruptSection]
    split_ifs with h
    · rw [List.isEmpty_iff.mp h]
      rfl
    · rfl
  rw [helements]
  exact mapM_valuesOf fun record _ =>
    selectObjectFields_value nodup_softwareInterruptFields (by rfl) hfields

/-- The number of interrupts in the view, which is zero by default. -/
theorem selectSoftwareInterruptCount_run :
    selectSoftwareInterruptCount (runDocument texts result load metadata report).value
      ((interruptSection result).map value)
      = .ok (Document.number result.software_interrupts.length).value := by
  rw [selectSoftwareInterruptCount, interruptSection]
  cases h : result.software_interrupts.isEmpty with
  | true =>
    rw [List.isEmpty_iff.mp h]
    rfl
  | false =>
    rw [if_neg Bool.false_ne_true, if_pos (by rfl)]
    exact requiredField_softwareInterruptCount texts result load metadata report h

/-- The fields of a run that are kept as they are. -/
def rootView : List (Str × Document) := [
  ("schema", .string "zero_cpu_multiprocess_trace"), ("schema_version", .number kSchemaVersion),
  ("mode", .string metadata.execution_mode),
  ("runtime_state", .string (processRuntimeStateToString result.runtime_state)),
  ("step_limit_reached", .boolean result.step_limit_reached),
  ("lifecycle_steps", .number result.lifecycle_steps), ("process_count", .number result.process_count),
  ("termination_count", .number result.termination_count), ("fault_count", .number result.fault_count),
  ("preemption_count", .number result.preemption_count),
  ("context_switch_count", .number result.context_switch_count),
  ("execution_event_count", .number result.execution_trace.length),
  ("context_switch_event_count", .number result.context_switches.length)]

/-- The fields of the view are selected from a written run. -/
theorem emplaceFields_runDocument :
    emplaceFields (runDocument texts result load metadata report).value rootFields []
      = .ok (membersOf [] (rootView result metadata)) := by
  have hkept (withInterrupts : Bool) : ∀ name ∈ rootFields,
      name ∈ headKeys ++ ((if withInterrupts then interruptKeys else []) ++ tailKeys) := by
    cases withInterrupts <;> decide
  have hselect : select (runMembers texts result load metadata report) rootFields
      = rootView result metadata := by
    rw [runMembers, interruptMembers]
    cases result.software_interrupts.isEmpty <;> rfl
  rw [runDocument, emplaceFields_value (nodup_runKeys _)
    (runMembers_keys texts result load metadata report) (hkept _), hselect]

/-- The view that the reader takes of a written run. -/
theorem multiProcessArchitecturalView_runDocument :
    multiProcessArchitecturalView (runDocument texts result load metadata report).value
      = .ok (runView result load metadata report).value := by
  -- Each section of the document is mapped to its view, entry by entry.
  have hexecutions : (valuesOf (result.execution_trace.zipIdx.map fun entry =>
      executionDocument texts entry.1 entry.2)).mapM executionRecordView
      = .ok (valuesOf (result.execution_trace.zipIdx.map fun entry =>
        executionView entry.1 entry.2)) :=
    mapM_valuesOf fun entry _ => executionRecordView_executionDocument texts entry.1 entry.2
  have hswitches : (valuesOf (result.context_switches.map switchDocument)).mapM
      (fun record => selectObjectFields record contextSwitchFields)
      = .ok (valuesOf (result.context_switches.map switchDocument)) :=
    mapM_valuesOf fun record _ =>
      selectObjectFields_value nodup_contextSwitchFields (by rfl) fun _ h => h
  have hkept : ∀ name ∈ processFields, name ∈ processKeys := by decide
  have hprocesses : (valuesOf (result.processes.zipIdx.map fun entry =>
      processDocument entry.1 (load entry.2))).mapM
        (fun process => selectObjectFields process processFields)
      = .ok (valuesOf (result.processes.zipIdx.map fun entry => processView entry.1 (load entry.2))) :=
    mapM_valuesOf fun entry _ => selectObjectFields_value nodup_processKeys (by rfl) hkept
  have hinvariants : requiredField (runDocument texts result load metadata report).value "invariants"
      = .ok (reportDocument report).value :=
    requiredField_head texts result load metadata report rfl
  rw [multiProcessArchitecturalView, requiredField_executionTrace, ok_bind,
    requiredField_contextSwitches, ok_bind, requiredField_processes, ok_bind,
    optionalField_softwareInterrupts, ok_bind, elements_array, hexecutions, ok_bind,
    mapM_interruptSection, ok_bind, elements_array, hswitches, ok_bind, elements_array, hprocesses,
    ok_bind, emplaceFields_runDocument, ok_bind, selectSoftwareInterruptCount_run, ok_bind,
    hinvariants, ok_bind, multiProcessInvariantArchitecturalView_reportDocument, ok_bind]
  rfl

end View

end MultiProcessTraceJsonWriter

end ZeroCpu.Sys
