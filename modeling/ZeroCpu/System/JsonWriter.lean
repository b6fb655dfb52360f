import Mathlib.Data.List.DropRight
import ZeroCpu.System.InvariantVerifier
import ZeroCpu.Trace.JsonWriter

/-!
# The trace of a multi-process run as a document

Reference: `include/zero_cpu/system/MultiProcessTraceJsonWriter.hpp`,
`src/system/MultiProcessTraceJsonWriter.cpp`, and the names of `src/kernel/ProcessTermination.cpp`,
`src/kernel/ProcessLifecycleManager.cpp` and `include/zero_cpu/core/SoftwareInterruptHandler.hpp`.

The report of the verifier is part of what is written. The events are written by the writer of
single-process traces, from the first column on, and indented again.
-/

namespace ZeroCpu

/-- The name of a disposition. -/
def softwareInterruptDispositionToString : SoftwareInterruptDisposition → Str
  | .ReturnToCaller => "ReturnToCaller"
  | .TerminateProcess => "TerminateProcess"

namespace Kernel

/-- The name of a runtime state. -/
def processRuntimeStateToString : ProcessRuntimeState → Str
  | .Ready => "Ready"
  | .Running => "Running"
  | .Completed => "Completed"
  | .Deadlocked => "Deadlocked"

/-- The name of a kind of termination. -/
def processTerminationKindToString : ProcessTerminationKind → Str
  | .NormalExit => "NormalExit"
  | .CpuFault => "CpuFault"

end Kernel

namespace Sys

open Library Kernel Json Assembler

/-- What a trace of a run says about where it comes from. -/
structure MultiProcessTraceJsonMetadata where
  producer : Str := "zero_cpu"
  producer_version : Str := []
  execution_mode : Str := "ProtectedMultiProcess"

/-- The fields of `ProcessRunSummary` that say where a process was loaded from. -/
structure ProcessLoad where
  source_name : Str
  has_executable_image : Bool
  code_end_exclusive : ℕ
  data_base : ℕ
  data_size : ℕ

/-- The number of violations. -/
def MultiProcessInvariantReport.violationCount (report : MultiProcessInvariantReport) : ℕ :=
  report.violations.length

namespace MultiProcessTraceJsonWriter

/-- The version of the schema. -/
def kSchemaVersion : ℕ := 1

/-- The lines of a text behind a name, without the line ends at its end. -/
def nestedJsonField (fieldIndent : ℕ) (name json : Str) (comma : Bool) : Str :=
  let json : Str := json.rdropWhile fun ch => ch == '\n' || ch == '\r'
  indent fieldIndent ++ ("\"" ++ (escapeJson name ++ ("\": "
    ++ (('\n'.toUInt8 :: indent fieldIndent).intercalate (splitLines json) ++ finishField comma))))

/-- The report of the verifier. -/
def appendInvariantReport (report : MultiProcessInvariantReport) : Str :=
  objectField 2 "invariants" (List.flatten [
    boolField 4 "passed" report.passed true,
    sizeField 4 "violation_count" report.violationCount true,
    arrayField 4 "violations" (withCommas (fun violation => objectElement 6 (List.flatten [
      stringField 8 "code" violation.code true,
      stringField 8 "message" violation.message true,
      sizeField 8 "lifecycle_step" violation.lifecycle_step true,
      sizeField 8 "pid" violation.pid false])) report.violations) false]) true

/-- The execution records. -/
def appendExecutionTrace (texts : EventTexts) (result : MultiProcessRunResult) : Str :=
  sizeField 2 "execution_event_count" result.execution_trace.length true
    ++ arrayField 2 "execution_trace" (withCommas (fun entry => objectElement 4 (List.flatten [
      sizeField 6 "lifecycle_step" entry.1.lifecycle_step true,
      sizeField 6 "pid" entry.1.pid true,
      nestedJsonField 6 "event" (TraceJsonWriter.eventToJson texts entry.1.event entry.2) false]))
      result.execution_trace.zipIdx) true

/-- The interrupt records, when there are any. -/
def appendSoftwareInterrupts (result : MultiProcessRunResult) : Str :=
  if result.software_interrupts.isEmpty then []
  else sizeField 2 "software_interrupt_event_count" result.software_interrupts.length true
    ++ arrayField 2 "software_interrupts" (withCommas (fun record =>
      let resultValue := record.observation.result
      objectElement 4 (List.flatten [
        sizeField 6 "lifecycle_step" record.lifecycle_step true,
        sizeField 6 "pid" record.pid true,
        sizeField 6 "vector" record.observation.vector.toNat true,
        boolField 6 "has_service_number" resultValue.service_number.isSome true,
        int64Field 6 "service_number" (resultValue.service_number.getD 0) true,
        boolField 6 "has_argument0" resultValue.argument0.isSome true,
        int64Field 6 "argument0" (resultValue.argument0.getD 0) true,
        boolField 6 "has_argument1" resultValue.argument1.isSome true,
        int64Field 6 "argument1" (resultValue.argument1.getD 0) true,
        boolField 6 "has_status" resultValue.status.isSome true,
        int64Field 6 "status" (resultValue.status.getD 0) true,
        boolField 6 "has_result" resultValue.result.isSome true,
        int64Field 6 "result_value" (resultValue.result.getD 0) true,
        stringField 6 "disposition"
          (softwareInterruptDispositionToString resultValue.disposition) true,
        int64Field 6 "exit_code" resultValue.exit_code false])) result.software_interrupts) true

/-- The context switches. -/
def appendContextSwitches (result : MultiProcessRunResult) : Str :=
  sizeField 2 "context_switch_event_count" result.context_switches.length true
    ++ arrayField 2 "context_switches" (withCommas (fun record => objectElement 4 (List.flatten [
      sizeField 6 "lifecycle_step" record.lifecycle_step true,
      sizeField 6 "from_pid" record.from_pid true,
      sizeField 6 "to_pid" record.to_pid true,
      boolField 6 "preempted" record.preempted true,
      boolField 6 "caused_by_termination" record.caused_by_termination false]))
      result.context_switches) true

section Result

variable (texts : EventTexts) (result : MultiProcessRunResult) (load : ℕ → ProcessLoad)

/-- `load` has the fields of the summary at an index that say where the process was loaded from. -/
def appendProcesses : Str :=
  arrayField 2 "processes" (withCommas (fun entry => objectElement 4 (List.flatten [
    sizeField 6 "pid" entry.1.pid true,
    stringField 6 "source_name" (load entry.2).source_name true,
    stringField 6 "state" (processStateToString entry.1.state) true,
    boolField 6 "has_exit_code" entry.1.has_exit_code true,
    int64Field 6 "exit_code" entry.1.exit_code true,
    stringField 6 "termination_kind" (processTerminationKindToString entry.1.termination_kind) true,
    stringField 6 "termination_message" entry.1.termination_message true,
    sizeField 6 "pc" entry.1.final_context.pc true,
    sizeField 6 "sp" entry.1.final_context.sp true,
    boolField 6 "has_executable_image" (load entry.2).has_executable_image true,
    sizeField 6 "code_end_exclusive" (load entry.2).code_end_exclusive true,
    sizeField 6 "data_base" (load entry.2).data_base true,
    sizeField 6 "data_size" (load entry.2).data_size false])) result.processes.zipIdx) false

/-- A run. -/
def toJson (metadata : MultiProcessTraceJsonMetadata) : Except Str Str := do
  let report ← MultiProcessInvariantVerifier.verify result
  pure ("\x7b\n" ++ (List.flatten [
    stringField 2 "schema" "zero_cpu_multiprocess_trace" true,
    sizeField 2 "schema_version" kSchemaVersion true,
    stringField 2 "producer" metadata.producer true,
    stringField 2 "producer_version" metadata.producer_version true,
    stringField 2 "mode" metadata.execution_mode true,
    stringField 2 "runtime_state" (processRuntimeStateToString result.runtime_state) true,
    boolField 2 "step_limit_reached" result.step_limit_reached true,
    sizeField 2 "lifecycle_steps" result.lifecycle_steps true,
    sizeField 2 "process_count" result.process_count true,
    sizeField 2 "termination_count" result.termination_count true,
    sizeField 2 "fault_count" result.fault_count true,
    sizeField 2 "preemption_count" result.preemption_count true,
    sizeField 2 "context_switch_count" result.context_switch_count true,
    appendInvariantReport report,
    appendExecutionTrace texts result,
    appendSoftwareInterrupts result,
    appendContextSwitches result,
    appendProcesses result load] ++ "\x7d\n"))

end Result

/-! ## The document -/

open Json.Document
open TraceJsonWriter (eventDocument eventToJson eventToJson_eq)

/-- The document of a violation. -/
def violationDocument (violation : MultiProcessInvariantViolation) : Document := .object [
  ("code", .string violation.code), ("message", .string violation.message),
  ("lifecycle_step", .number violation.lifecycle_step), ("pid", .number violation.pid)]

/-- The document of a report. -/
def reportDocument (report : MultiProcessInvariantReport) : Document := .object [
  ("passed", .boolean report.passed), ("violation_count", .number report.violationCount),
  ("violations", .array (report.violations.map violationDocument))]

/-- The document of an execution record. -/
def executionDocument (texts : EventTexts) (record : ProcessExecutionTraceRecord) (index : ℕ) :
    Document := .object [
  ("lifecycle_step", .number record.lifecycle_step), ("pid", .number record.pid),
  ("event", eventDocument texts record.event index)]

/-- The document of an interrupt record. -/
def interruptDocument (record : ProcessSoftwareInterruptTraceRecord) : Document := .object [
  ("lifecycle_step", .number record.lifecycle_step), ("pid", .number record.pid),
  ("vector", .number record.observation.vector.toNat),
  ("has_service_number", .boolean record.observation.result.service_number.isSome),
  ("service_number", .number (record.observation.result.service_number.getD 0).toInt),
  ("has_argument0", .boolean record.observation.result.argument0.isSome),
  ("argument0", .number (record.observation.result.argument0.getD 0).toInt),
  ("has_argument1", .boolean record.observation.result.argument1.isSome),
  ("argument1", .number (record.observation.result.argument1.getD 0).toInt),
  ("has_status", .boolean record.observation.result.status.isSome),
  ("status", .number (record.observation.result.status.getD 0).toInt),
  ("has_result", .boolean record.observation.result.result.isSome),
  ("result_value", .number (record.observation.result.result.getD 0).toInt),
  ("disposition",
    .string (softwareInterruptDispositionToString record.observation.result.disposition)),
  ("exit_code", .number record.observation.result.exit_code.toInt)]

/-- The document of a context switch. -/
def switchDocument (record : ProcessContextSwitchTraceRecord) : Document := .object [
  ("lifecycle_step", .number record.lifecycle_step), ("from_pid", .number record.from_pid),
  ("to_pid", .number record.to_pid), ("preempted", .boolean record.preempted),
  ("caused_by_termination", .boolean record.caused_by_termination)]

/-- The document of a process. -/
def processDocument (process : ProcessRunSummary) (load : ProcessLoad) : Document := .object [
  ("pid", .number process.pid), ("source_name", .string load.source_name),
  ("state", .string (processStateToString process.state)),
  ("has_exit_code", .boolean process.has_exit_code), ("exit_code", .number process.exit_code.toInt),
  ("termination_kind", .string (processTerminationKindToString process.termination_kind)),
  ("termination_message", .string process.termination_message),
  ("pc", .number process.final_context.pc), ("sp", .number process.final_context.sp),
  ("has_executable_image", .boolean load.has_executable_image),
  ("code_end_exclusive", .number load.code_end_exclusive), ("data_base", .number load.data_base),
  ("data_size", .number load.data_size)]

/-- The section that is only there for a run with software interrupts. -/
def interruptMembers (result : MultiProcessRunResult) : List (Str × Document) :=
  if result.software_interrupts.isEmpty then []
  else [("software_interrupt_event_count", .number result.software_interrupts.length),
    ("software_interrupts", .array (result.software_interrupts.map interruptDocument))]

section Result

variable (texts : EventTexts) (result : MultiProcessRunResult) (load : ℕ → ProcessLoad)
  (metadata : MultiProcessTraceJsonMetadata) (report : MultiProcessInvariantReport)

/-- The members before those about interrupts. -/
def headMembers : List (Str × Document) := [
  ("schema", .string "zero_cpu_multiprocess_trace"), ("schema_version", .number kSchemaVersion),
  ("producer", .string metadata.producer), ("producer_version", .string metadata.producer_version),
  ("mode", .string metadata.execution_mode),
  ("runtime_state", .string (processRuntimeStateToString result.runtime_state)),
  ("step_limit_reached", .boolean result.step_limit_reached),
  ("lifecycle_steps", .number result.lifecycle_steps), ("process_count", .number result.process_count),
  ("termination_count", .number result.termination_count), ("fault_count", .number result.fault_count),
  ("preemption_count", .number result.preemption_count),
  ("context_switch_count", .number result.context_switch_count), ("invariants", reportDocument report),
  ("execution_event_count", .number result.execution_trace.length),
  ("execution_trace", .array (result.execution_trace.zipIdx.map fun entry =>
    executionDocument texts entry.1 entry.2))]

/-- The members behind those about interrupts. -/
def tailMembers : List (Str × Document) := [
  ("context_switch_event_count", .number result.context_switches.length),
  ("context_switches", .array (result.context_switches.map switchDocument)),
  ("processes", .array (result.processes.zipIdx.map fun entry =>
    processDocument entry.1 (load entry.2)))]

/-- The members of a run. -/
def runMembers : List (Str × Document) :=
  headMembers texts result metadata report ++ (interruptMembers result ++ tailMembers result load)

/-- The document of a run. -/
def runDocument : Document := .object (runMembers texts result load metadata report)

end Result

/-! ## The text of the document -/

/-- An object ends with its closing brace. -/
theorem last_text_object (margin : ℕ) (fields : List (Str × Document)) :
    ∃ lines : Str, (Document.object fields).text margin = lines ++ ['}'.toUInt8] := by
  refine ⟨"\x7b\n" ++ (fieldsText (margin + 2) fields ++ indent margin), ?_⟩
  have hclose : Str.ofString "\x7d" = ['}'.toUInt8] := rfl
  simp only [Document.text, hclose, List.append_assoc]

/-- The lines of a document, indented again, are the document with a wider margin. -/
theorem nestedJsonField_eq (fieldIndent : ℕ) (name : Str) {fields : List (Str × Document)}
    (h : (Document.object fields).Readable) (comma : Bool) :
    nestedJsonField fieldIndent name ((Document.object fields).text 0 ++ "\n") comma
      = fieldText fieldIndent name ((Document.object fields).text fieldIndent) comma := by
  obtain ⟨lines, hlines⟩ := last_text_object 0 fields
  have hdrop : ((Document.object fields).text 0 ++ Str.ofString "\n").rdropWhile
      (fun ch => ch == '\n'.toUInt8 || ch == '\r'.toUInt8) = (Document.object fields).text 0 := by
    have hend : Str.ofString "\n" = ['\n'.toUInt8] := rfl
    rw [hend, List.rdropWhile_concat_pos _ _ _ rfl, hlines, List.rdropWhile_concat_neg _ _ _ (by decide)]
  have hlast : ((Document.object fields).text 0).getLast? ≠ some '\n'.toUInt8 := by
    rw [hlines, List.getLast?_concat]
    decide
  have htext := h.reindent_text fieldIndent 0
  rw [Nat.zero_add] at htext
  rw [nestedJsonField, fieldText, ← htext]
  show indent fieldIndent ++ ("\"" ++ (escapeJson name ++ ("\": "
    ++ (('\n'.toUInt8 :: indent fieldIndent).intercalate (splitLinesFrom [] _) ++ _)))) = _
  rw [hdrop, intercalate_splitLinesFrom fieldIndent hlast, List.nil_append]

/-- The report is written as its document. -/
theorem appendInvariantReport_eq (report : MultiProcessInvariantReport) :
    appendInvariantReport report
      = fieldText 2 "invariants" ((reportDocument report).text 2) true := by
  have hviolations : arrayField 4 "violations" (withCommas (fun violation =>
      objectElement 6 (List.flatten [
        stringField 8 "code" violation.code true, stringField 8 "message" violation.message true,
        sizeField 8 "lifecycle_step" violation.lifecycle_step true,
        sizeField 8 "pid" violation.pid false])) report.violations) false
      = fieldText 4 "violations"
        ((Document.array (report.violations.map violationDocument)).text 4) false := by
    rw [← arrayField_eq, ← withCommas_element]
    simp only [violationDocument, ← objectElement_eq]
    rfl
  rw [appendInvariantReport, hviolations, reportDocument, ← objectField_eq]
  rfl

/-- The interrupt records are written as their documents. -/
theorem appendSoftwareInterrupts_eq (result : MultiProcessRunResult) (rest : List (Str × Document))
    (h : rest ≠ []) :
    appendSoftwareInterrupts result ++ fieldsText 2 rest
      = fieldsText 2 (interruptMembers result ++ rest) := by
  rw [appendSoftwareInterrupts, interruptMembers]
  split_ifs with hempty
  · rfl
  · rw [List.cons_append, List.cons_append, List.nil_append, fieldsText, fieldsText,
      List.isEmpty_eq_false_iff.mpr h, List.append_assoc, ← arrayField_eq, ← withCommas_element]
    simp only [interruptDocument, ← objectElement_eq]
    rfl

/-- The context switches are written as their documents. -/
theorem appendContextSwitches_eq (result : MultiProcessRunResult) :
    appendContextSwitches result
      = fieldText 2 "context_switch_event_count"
          ((Document.number result.context_switches.length).text 2) true
        ++ fieldText 2 "context_switches"
          ((Document.array (result.context_switches.map switchDocument)).text 2) true := by
  rw [← arrayField_eq, ← withCommas_element]
  simp only [switchDocument, ← objectElement_eq]
  rfl

/-- The processes are written as their documents. -/
theorem appendProcesses_eq (result : MultiProcessRunResult) (load : ℕ → ProcessLoad) :
    appendProcesses result load
      = fieldText 2 "processes" ((Document.array (result.processes.zipIdx.map fun entry =>
          processDocument entry.1 (load entry.2))).text 2) false := by
  rw [← arrayField_eq, ← withCommas_element]
  simp only [processDocument, ← objectElement_eq]
  rfl

/-- What is written of the events, which must be in range to be indented again. -/
theorem appendExecutionTrace_eq {texts : EventTexts} {result : MultiProcessRunResult}
    (h : ∀ entry ∈ result.execution_trace.zipIdx,
      (eventDocument texts entry.1.event entry.2).Readable) :
    appendExecutionTrace texts result
      = fieldText 2 "execution_event_count"
          ((Document.number result.execution_trace.length).text 2) true
        ++ fieldText 2 "execution_trace" ((Document.array (result.execution_trace.zipIdx.map fun entry =>
          executionDocument texts entry.1 entry.2)).text 2) true := by
  have hevents : withCommas (fun entry => objectElement 4 (List.flatten [
      sizeField 6 "lifecycle_step" entry.1.lifecycle_step true, sizeField 6 "pid" entry.1.pid true,
      nestedJsonField 6 "event" (eventToJson texts entry.1.event entry.2) false]))
        result.execution_trace.zipIdx
      = elementsText 4 (result.execution_trace.zipIdx.map fun entry =>
        executionDocument texts entry.1 entry.2) := by
    rw [← withCommas_element]
    apply withCommas_congr
    intro entry hentry
    funext comma
    rw [executionDocument, ← objectElement_eq, eventToJson_eq, eventDocument,
      nestedJsonField_eq 6 "event" (h entry hentry)]
    rfl
  rw [← arrayField_eq, ← hevents]
  rfl

/-- Fields with more fields behind them. -/
theorem fieldsText_append (margin : ℕ) (fields : List (Str × Document)) {rest : List (Str × Document)}
    (h : rest ≠ []) :
    fieldsText margin (fields ++ rest)
      = (fields.flatMap fun field => fieldText margin field.1 (field.2.text margin) true)
        ++ fieldsText margin rest := by
  induction fields with
  | nil => rfl
  | cons field fields ih =>
    have hmore : (fields ++ rest).isEmpty = false :=
      List.isEmpty_eq_false_iff.mpr (List.append_ne_nil_of_right_ne_nil _ h)
    rw [List.cons_append, fieldsText, ih, hmore, List.flatMap_cons, List.append_assoc, Bool.not_false]

/-- What is written of a run is the text of its document. -/
theorem toJson_eq {texts : EventTexts} {result : MultiProcessRunResult} (load : ℕ → ProcessLoad)
    (metadata : MultiProcessTraceJsonMetadata) {report : MultiProcessInvariantReport}
    (hreport : MultiProcessInvariantVerifier.verify result = .ok report)
    (h : ∀ entry ∈ result.execution_trace.zipIdx,
      (eventDocument texts entry.1.event entry.2).Readable) :
    toJson texts result load metadata
      = .ok ((runDocument texts result load metadata report).text 0 ++ "\n") := by
  have htail : appendSoftwareInterrupts result
        ++ (appendContextSwitches result ++ appendProcesses result load)
      = fieldsText 2 (interruptMembers result ++ tailMembers result load) := by
    rw [← appendSoftwareInterrupts_eq result (tailMembers result load) (List.cons_ne_nil _ _),
      appendContextSwitches_eq, appendProcesses_eq, List.append_assoc]
    simp only [tailMembers, fieldsText, List.append_nil]
    rfl
  have hne : interruptMembers result ++ tailMembers result load ≠ [] :=
    List.append_ne_nil_of_right_ne_nil _ (List.cons_ne_nil _ _)
  rw [toJson, hreport, ok_bind, runDocument, ← root_eq, runMembers, fieldsText_append _ _ hne, ← htail]
  simp only [List.flatten_cons, List.flatten_nil, headMembers, List.flatMap_cons, List.flatMap_nil,
    List.append_assoc, List.append_nil, stringField_eq, sizeField_eq, boolField_eq,
    appendInvariantReport_eq, appendExecutionTrace_eq h]
  rfl

end MultiProcessTraceJsonWriter

end Sys

end ZeroCpu
