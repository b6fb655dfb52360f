import ZeroCpu.System.Consistency
import ZeroCpu.System.JsonReading

/-!
# Comparing the traces of multi-process runs

Reference: `src/system/MultiProcessTraceJsonWriter.cpp`, `src/trace/TraceJsonDiff.cpp`.

Two written runs are told apart by what is read of them, and their architectural views are the same
exactly when the runs agree.
-/

namespace ZeroCpu.Sys

open Library Kernel Json Json.Document

/-- A result agrees with itself. -/
theorem MultiProcessRunResult.Agrees.refl (result : MultiProcessRunResult) (load : ℕ → ProcessLoad) :
    result.Agrees load result load where
  runtime_state := rfl
  step_limit_reached := rfl
  lifecycle_steps := rfl
  process_count := rfl
  termination_count := rfl
  fault_count := rfl
  preemption_count := rfl
  context_switch_count := rfl
  execution_trace := List.forall₂_same.mpr fun _ _ => ⟨rfl, rfl, rfl, rfl, rfl, rfl, rfl⟩
  software_interrupts := rfl
  context_switches := rfl
  processes := List.forall₂_same.mpr fun _ _ => ⟨rfl, rfl, rfl, rfl, rfl, rfl, rfl, rfl, rfl⟩

namespace MultiProcessTraceJsonWriter

open TraceJsonWriter (sameTexts array_alike eventDocument_alike eventView_alike eventView_inj
  map_zipIdx_eq_iff)

/-! ## Layouts -/

/-- Two violations have documents of one layout. -/
theorem violationDocument_alike (violation violation' : MultiProcessInvariantViolation) :
    Alike (violationDocument violation) (violationDocument violation') := by
  refine .of_keys nodup_violationKeys rfl rfl ?_
  simp only [List.zip_cons_cons, List.zip_nil_left, List.forall_mem_cons]
  exact ⟨.string _ _, .string _ _, .number _ _, .number _ _, List.forall_mem_nil _⟩

/-- Two reports have documents of one layout. -/
theorem reportDocument_alike (report report' : MultiProcessInvariantReport) :
    Alike (reportDocument report) (reportDocument report') := by
  refine .of_keys nodup_reportKeys rfl rfl ?_
  simp only [List.zip_cons_cons, List.zip_nil_left, List.forall_mem_cons]
  exact ⟨.boolean _ _, .number _ _, array_alike violationDocument_alike _ _, List.forall_mem_nil _⟩

/-- Two execution records have documents of one layout. -/
theorem executionDocument_alike (texts texts' : EventTexts)
    (record record' : ProcessExecutionTraceRecord) (index index' : ℕ) :
    Alike (executionDocument texts record index) (executionDocument texts' record' index') := by
  refine .of_keys nodup_executionKeys rfl rfl ?_
  simp only [List.zip_cons_cons, List.zip_nil_left, List.forall_mem_cons]
  exact ⟨.number _ _, .number _ _, eventDocument_alike _ _ _ _ _ _, List.forall_mem_nil _⟩

/-- Two interrupt records have documents of one layout. -/
theorem interruptDocument_alike (record record' : ProcessSoftwareInterruptTraceRecord) :
    Alike (interruptDocument record) (interruptDocument record') := by
  refine .of_keys nodup_softwareInterruptFields rfl rfl ?_
  simp only [List.zip_cons_cons, List.zip_nil_left, List.forall_mem_cons]
  exact ⟨.number _ _, .number _ _, .number _ _, .boolean _ _, .number _ _, .boolean _ _, .number _ _,
    .boolean _ _, .number _ _, .boolean _ _, .number _ _, .boolean _ _, .number _ _, .string _ _,
    .number _ _, List.forall_mem_nil _⟩

/-- Two context switches have documents of one layout. -/
theorem switchDocument_alike (record record' : ProcessContextSwitchTraceRecord) :
    Alike (switchDocument record) (switchDocument record') := by
  refine .of_keys nodup_contextSwitchFields rfl rfl ?_
  simp only [List.zip_cons_cons, List.zip_nil_left, List.forall_mem_cons]
  exact ⟨.number _ _, .number _ _, .number _ _, .boolean _ _, .boolean _ _, List.forall_mem_nil _⟩

/-- Two processes have documents of one layout. -/
theorem processDocument_alike (process process' : ProcessRunSummary) (load load' : ProcessLoad) :
    Alike (processDocument process load) (processDocument process' load') := by
  refine .of_keys nodup_processKeys rfl rfl ?_
  simp only [List.zip_cons_cons, List.zip_nil_left, List.forall_mem_cons]
  exact ⟨.number _ _, .string _ _, .string _ _, .boolean _ _, .number _ _, .string _ _, .string _ _,
    .number _ _, .number _ _, .boolean _ _, .number _ _, .number _ _, .number _ _,
    List.forall_mem_nil _⟩

/-- The views of two violations have one layout. -/
theorem violationView_alike (violation violation' : MultiProcessInvariantViolation) :
    Alike (violationView violation) (violationView violation') := by
  refine .of_keys nodup_violationFields rfl rfl ?_
  simp only [List.zip_cons_cons, List.zip_nil_left, List.forall_mem_cons]
  exact ⟨.string _ _, .number _ _, .number _ _, List.forall_mem_nil _⟩

/-- The views of two reports have one layout. -/
theorem reportView_alike (report report' : MultiProcessInvariantReport) :
    Alike (reportView report) (reportView report') := by
  refine .of_keys nodup_reportKeys rfl rfl ?_
  simp only [List.zip_cons_cons, List.zip_nil_left, List.forall_mem_cons]
  exact ⟨.boolean _ _, .number _ _, array_alike violationView_alike _ _, List.forall_mem_nil _⟩

/-- The views of two execution records have one layout. -/
theorem executionView_alike (record record' : ProcessExecutionTraceRecord) (index index' : ℕ) :
    Alike (executionView record index) (executionView record' index') := by
  refine .of_keys nodup_executionKeys rfl rfl ?_
  simp only [List.zip_cons_cons, List.zip_nil_left, List.forall_mem_cons]
  exact ⟨.number _ _, .number _ _, eventView_alike _ _ _ _, List.forall_mem_nil _⟩

/-- The views of two processes have one layout. -/
theorem processView_alike (process process' : ProcessRunSummary) (load load' : ProcessLoad) :
    Alike (processView process load) (processView process' load') := by
  refine .of_keys nodup_processFields rfl rfl ?_
  simp only [List.zip_cons_cons, List.zip_nil_left, List.forall_mem_cons]
  exact ⟨.number _ _, .string _ _, .boolean _ _, .number _ _, .string _ _, .string _ _, .number _ _,
    .number _ _, .boolean _ _, .number _ _, .number _ _, .number _ _, List.forall_mem_nil _⟩

/-- The keys of the view of a run. -/
def viewKeys : List Str :=
  ["schema", "schema_version", "mode", "runtime_state", "step_limit_reached", "lifecycle_steps",
    "process_count", "termination_count", "fault_count", "preemption_count", "context_switch_count",
    "execution_event_count", "context_switch_event_count", "software_interrupt_event_count",
    "invariants", "execution_trace", "software_interrupts", "context_switches", "processes"]

theorem nodup_viewKeys : viewKeys.Nodup := by decide +kernel

section Layouts

variable (texts texts' : EventTexts) (result result' : MultiProcessRunResult)
  (load load' : ℕ → ProcessLoad) (metadata metadata' : MultiProcessTraceJsonMetadata)
  (report report' : MultiProcessInvariantReport)

/-- The views of two runs have one layout. -/
theorem runView_alike :
    Alike (runView result load metadata report) (runView result' load' metadata' report') := by
  refine .of_keys nodup_viewKeys rfl rfl ?_
  simp only [List.zip_cons_cons, List.zip_nil_left, List.forall_mem_cons]
  exact ⟨.string _ _, .number _ _, .string _ _, .string _ _, .boolean _ _, .number _ _, .number _ _,
    .number _ _, .number _ _, .number _ _, .number _ _, .number _ _, .number _ _, .number _ _,
    reportView_alike _ _, array_alike (fun _ _ => executionView_alike _ _ _ _) _ _,
    array_alike interruptDocument_alike _ _, array_alike switchDocument_alike _ _,
    array_alike (fun _ _ => processView_alike _ _ _ _) _ _, List.forall_mem_nil _⟩

/-- The members before the interrupts have one layout. -/
theorem headMembers_alike : ∀ pair ∈ (headMembers texts result metadata report).zip
    (headMembers texts' result' metadata' report'), Alike pair.1.2 pair.2.2 := by
  simp only [headMembers, List.zip_cons_cons, List.zip_nil_left, List.forall_mem_cons]
  exact ⟨.string _ _, .number _ _, .string _ _, .string _ _, .string _ _, .string _ _, .boolean _ _,
    .number _ _, .number _ _, .number _ _, .number _ _, .number _ _, .number _ _,
    reportDocument_alike _ _, .number _ _, array_alike (fun _ _ => executionDocument_alike _ _ _ _ _ _) _ _,
    List.forall_mem_nil _⟩

/-- The members behind the interrupts have one layout. -/
theorem tailMembers_alike : ∀ pair ∈ (tailMembers result load).zip (tailMembers result' load'),
    Alike pair.1.2 pair.2.2 := by
  simp only [tailMembers, List.zip_cons_cons, List.zip_nil_left, List.forall_mem_cons]
  exact ⟨.number _ _, array_alike switchDocument_alike _ _,
    array_alike (fun _ _ => processDocument_alike _ _ _ _) _ _, List.forall_mem_nil _⟩

/-- The members about interrupts have one layout when both runs have them or neither has. -/
theorem interruptMembers_alike
    (h : result.software_interrupts.isEmpty = result'.software_interrupts.isEmpty) :
    ∀ pair ∈ (interruptMembers result).zip (interruptMembers result'), Alike pair.1.2 pair.2.2 := by
  rw [interruptMembers, interruptMembers, ← h]
  split_ifs
  · exact List.forall_mem_nil _
  · simp only [List.zip_cons_cons, List.zip_nil_left, List.forall_mem_cons]
    exact ⟨.number _ _, array_alike interruptDocument_alike _ _, List.forall_mem_nil _⟩

/-- Both runs have the members about interrupts, or neither has. -/
theorem length_interruptMembers
    (h : result.software_interrupts.isEmpty = result'.software_interrupts.isEmpty) :
    (interruptMembers result).length = (interruptMembers result').length := by
  rw [interruptMembers, interruptMembers, ← h]
  split_ifs <;> rfl

variable {texts texts' result result' load load' metadata metadata' report report'}

/-- Runs are told apart by what is read of them: the section of software interrupts is there for both
or for neither, and the layout is the same. -/
theorem runDocument_eq_of_value
    (hvalue : (runDocument texts result load metadata report).value
      = (runDocument texts' result' load' metadata' report').value) :
    runDocument texts result load metadata report
      = runDocument texts' result' load' metadata' report' := by
  have hempty : result.software_interrupts.isEmpty = result'.software_interrupts.isEmpty := by
    have hsection := optionalField_softwareInterrupts texts result load metadata report
    rw [hvalue, optionalField_softwareInterrupts] at hsection
    have hnone (result : MultiProcessRunResult) :
        ((interruptSection result).map value).isNone = result.software_interrupts.isEmpty := by
      rw [interruptSection]
      cases result.software_interrupts.isEmpty <;> rfl
    rw [← hnone result, ← hnone result', Except.ok.inj hsection]
  have hkeys := runMembers_keys texts result load metadata report
  have hkeys' := runMembers_keys texts' result' load' metadata' report'
  rw [← hempty] at hkeys'
  refine (Alike.of_keys (nodup_runKeys _) hkeys hkeys' ?_).eq_of_value hvalue
  rw [runMembers, runMembers, List.zip_append (by rfl),
    List.zip_append (length_interruptMembers result result' hempty), List.forall_mem_append,
    List.forall_mem_append]
  exact ⟨headMembers_alike _ _ _ _ _ _ _ _, interruptMembers_alike _ _ hempty,
    tailMembers_alike _ _ _ _⟩

end Layouts

/-! ## What is written of a run -/

/-- The view of a violation determines its code, step and process. -/
theorem violationView_inj {violation violation' : MultiProcessInvariantViolation} :
    violationView violation = violationView violation' ↔ violation.Agrees violation' := by
  obtain ⟨code, message, lifecycleStep, pid⟩ := violation
  obtain ⟨code', message', lifecycleStep', pid'⟩ := violation'
  simp only [violationView, MultiProcessInvariantViolation.Agrees, Document.object.injEq,
    List.cons.injEq, Prod.mk.injEq, Document.string.injEq, Document.number.injEq, Nat.cast_inj,
    MultiProcessInvariantViolation.mk.injEq, true_and, and_true]

/-- The view of an execution record determines the record, without the memory. -/
theorem executionView_inj {record record' : ProcessExecutionTraceRecord} (index : ℕ) :
    executionView record index = executionView record' index ↔ record.Agrees record' := by
  simp only [executionView, Document.object.injEq, List.cons.injEq, Prod.mk.injEq,
    Document.number.injEq, Nat.cast_inj, eventView_inj, true_and, and_true]
  exact ⟨fun ⟨hstep, hpid, hevent⟩ => ⟨hstep, hpid, hevent⟩,
    fun ⟨hstep, hpid, hevent⟩ => ⟨hstep, hpid, hevent⟩⟩

/-- A value is told apart by its flag and the number that is written for it. -/
theorem eq_of_isSome_of_getD {value value' : Option Word} (hsome : value.isSome = value'.isSome)
    (hvalue : value.getD 0 = value'.getD 0) : value = value' := by
  cases value with
  | none => exact (Option.isSome_eq_false_iff.mp hsome.symm |> Option.isNone_iff_eq_none.mp).symm
  | some word =>
    obtain ⟨word', rfl⟩ := Option.isSome_iff_exists.mp hsome.symm
    exact congrArg some hvalue

/-- Different dispositions have different names. -/
theorem softwareInterruptDispositionToString_injective :
    Function.Injective softwareInterruptDispositionToString := by
  intro disposition disposition' h
  cases disposition <;> cases disposition' <;> first | rfl | exact absurd h (by decide)

/-- The document of an interrupt record determines it. -/
theorem interruptDocument_injective : Function.Injective interruptDocument := by
  rintro ⟨step, pid, vector, result⟩ ⟨step', pid', vector', result'⟩ h
  obtain ⟨disposition, exitCode, service, argument0, argument1, status, value⟩ := result
  obtain ⟨disposition', exitCode', service', argument0', argument1', status', value'⟩ := result'
  simp only [interruptDocument, Document.object.injEq, List.cons.injEq, Prod.mk.injEq,
    Document.number.injEq, Document.string.injEq, Document.boolean.injEq, Nat.cast_inj, UInt8.toNat_inj,
    BitVec.toInt_inj, softwareInterruptDispositionToString_injective.eq_iff, true_and, and_true] at h
  obtain ⟨rfl, rfl, rfl, hservice, hservice', h0, h0', h1, h1', hstatus, hstatus', hvalue, hvalue', rfl,
    rfl⟩ := h
  rw [eq_of_isSome_of_getD hservice hservice', eq_of_isSome_of_getD h0 h0',
    eq_of_isSome_of_getD h1 h1', eq_of_isSome_of_getD hstatus hstatus',
    eq_of_isSome_of_getD hvalue hvalue']

/-- The document of a context switch determines it. -/
theorem switchDocument_injective : Function.Injective switchDocument := by
  rintro ⟨step, source, target, preempted, terminated⟩ ⟨step', source', target', preempted', terminated'⟩ h
  simp only [switchDocument, Document.object.injEq, List.cons.injEq, Prod.mk.injEq,
    Document.number.injEq, Document.boolean.injEq, Nat.cast_inj, true_and, and_true] at h
  obtain ⟨rfl, rfl, rfl, rfl, rfl⟩ := h
  rfl

theorem processStateToString_injective : Function.Injective processStateToString := by
  intro state state' h
  cases state <;> cases state' <;> first | rfl | exact absurd h (by decide)

theorem processRuntimeStateToString_injective : Function.Injective processRuntimeStateToString := by
  intro state state' h
  cases state <;> cases state' <;> first | rfl | exact absurd h (by decide)

theorem processTerminationKindToString_injective : Function.Injective processTerminationKindToString := by
  intro kind kind' h
  cases kind <;> cases kind' <;> first | rfl | exact absurd h (by decide)

/-- The view of a process determines its summary and its load, without the source. -/
theorem processView_inj {process process' : ProcessRunSummary} {load load' : ProcessLoad} :
    processView process load = processView process' load' ↔ process.Agrees load process' load' := by
  obtain ⟨name, image, code, base, size⟩ := load
  obtain ⟨name', image', code', base', size'⟩ := load'
  simp only [processView, Document.object.injEq, List.cons.injEq, Prod.mk.injEq, Document.string.injEq,
    Document.number.injEq, Document.boolean.injEq, Nat.cast_inj, BitVec.toInt_inj,
    processStateToString_injective.eq_iff, processTerminationKindToString_injective.eq_iff,
    true_and, and_true]
  constructor
  · rintro ⟨hpid, hstate, hhas, hexit, hkind, hmessage, hpc, hsp, rfl, rfl, rfl, rfl⟩
    exact ⟨hpid, hstate, hhas, hexit, hkind, hmessage, hpc, hsp, rfl⟩
  · rintro ⟨hpid, hstate, hhas, hexit, hkind, hmessage, hpc, hsp, hload⟩
    obtain ⟨-, himage, hcode, hbase, hsize⟩ := ProcessLoad.mk.injEq .. ▸ hload
    exact ⟨hpid, hstate, hhas, hexit, hkind, hmessage, hpc, hsp, himage, hcode, hbase, hsize⟩

/-- Lists written one by one are equal when their entries are written the same. -/
theorem map_eq_map_iff_forall₂ {α β : Type} {write write' : α → β} {R : α → α → Prop}
    (h : ∀ a a', write a = write' a' ↔ R a a') (l l' : List α) :
    l.map write = l'.map write' ↔ List.Forall₂ R l l' := by
  rw [← List.forall₂_eq_eq_eq, List.forall₂_map_left_iff, List.forall₂_map_right_iff]
  exact ⟨fun hall => hall.imp fun a a' => (h a a').mp, fun hall => hall.imp fun a a' => (h a a').mpr⟩

/-- The view of a report determines its violations. -/
theorem reportView_inj {report report' : MultiProcessInvariantReport} :
    reportView report = reportView report'
      ↔ List.Forall₂ MultiProcessInvariantViolation.Agrees report.violations report'.violations := by
  rw [← map_eq_map_iff_forall₂ fun _ _ => violationView_inj]
  constructor
  · intro h
    simp only [reportView, Document.object.injEq, List.cons.injEq, Prod.mk.injEq,
      Document.array.injEq, true_and, and_true] at h
    exact h.2.2
  · intro hviolations
    have hlength := congrArg List.length hviolations
    rw [List.length_map, List.length_map] at hlength
    have hpassed : report.passed = report'.passed := by
      rw [MultiProcessInvariantReport.passed, MultiProcessInvariantReport.passed, Bool.eq_iff_iff,
        List.isEmpty_iff_length_eq_zero, List.isEmpty_iff_length_eq_zero, hlength]
    rw [reportView, reportView, hpassed, hviolations, MultiProcessInvariantReport.violationCount,
      MultiProcessInvariantReport.violationCount, hlength]

/-- The views of the execution records determine the records. -/
theorem executionViews_inj {records records' : List ProcessExecutionTraceRecord} :
    records.zipIdx.map (fun entry => executionView entry.1 entry.2)
        = records'.zipIdx.map (fun entry => executionView entry.1 entry.2)
      ↔ List.Forall₂ ProcessExecutionTraceRecord.Agrees records records' :=
  @map_zipIdx_eq_iff _ _ executionView _ (fun _ _ => executionView_inj) records records' 0

/-- The views of the processes determine the processes. -/
theorem processViews_inj {entries entries' : List (ProcessRunSummary × ℕ)}
    {load load' : ℕ → ProcessLoad} :
    entries.map (fun entry => processView entry.1 (load entry.2))
        = entries'.map (fun entry => processView entry.1 (load' entry.2))
      ↔ List.Forall₂ (fun entry entry' => entry.1.Agrees (load entry.2) entry'.1 (load' entry'.2))
        entries entries' :=
  map_eq_map_iff_forall₂ (fun _ _ => processView_inj) entries entries'

section Runs

variable {texts texts' : EventTexts} {result result' : MultiProcessRunResult}
  {load load' : ℕ → ProcessLoad} {metadata metadata' : MultiProcessTraceJsonMetadata}
  {report report' : MultiProcessInvariantReport}

/-- The view of a run determines its mode, its result and the violations. -/
theorem runView_inj :
    runView result load metadata report = runView result' load' metadata' report'
      ↔ metadata.execution_mode = metadata'.execution_mode ∧ result.Agrees load result' load'
        ∧ List.Forall₂ MultiProcessInvariantViolation.Agrees report.violations report'.violations := by
  rw [← reportView_inj]
  constructor
  · intro h
    simp only [runView, Document.object.injEq, List.cons.injEq, Prod.mk.injEq, Document.string.injEq,
      Document.number.injEq, Document.boolean.injEq, Document.array.injEq, Nat.cast_inj,
      processRuntimeStateToString_injective.eq_iff, switchDocument_injective.list_map.eq_iff,
      interruptDocument_injective.list_map.eq_iff, true_and, and_true] at h
    obtain ⟨hmode, hstate, hlimit, hsteps, hcount, hterminations, hfaults, hpreemptions, hswitches, -, -,
      -, hreport, hexecutions, hinterrupts, hrecords, hprocesses⟩ := h
    exact ⟨hmode, ⟨hstate, hlimit, hsteps, hcount, hterminations, hfaults, hpreemptions, hswitches,
      executionViews_inj.mp hexecutions, hinterrupts, hrecords, processViews_inj.mp hprocesses⟩, hreport⟩
  · rintro ⟨hmode, hagrees, hreport⟩
    have hexecutions := executionViews_inj.mpr hagrees.execution_trace
    have hprocesses := processViews_inj.mpr hagrees.processes
    rw [runView, runView, hmode, hagrees.runtime_state, hagrees.step_limit_reached,
      hagrees.lifecycle_steps, hagrees.process_count, hagrees.termination_count, hagrees.fault_count,
      hagrees.preemption_count, hagrees.context_switch_count, hagrees.execution_trace.length_eq,
      hagrees.context_switches, hagrees.software_interrupts, hreport, hexecutions, hprocesses]

/-- What the writer and the reader need of a result: numbers in range, a report in range and as many
processes as it says. -/
structure Writable (result : MultiProcessRunResult) (load : ℕ → ProcessLoad)
    (report : MultiProcessInvariantReport) : Prop where
  numbers : result.Representable
  loads : ∀ index, (load index).Representable
  verified : MultiProcessInvariantVerifier.verify result = .ok report
  report : report.Representable
  count : result.process_count = result.processes.length

/-- A run that can be written is written as its document. -/
theorem Writable.toJson_eq (h : Writable result load report) (texts : EventTexts)
    (metadata : MultiProcessTraceJsonMetadata) :
    toJson texts result load metadata
      = .ok ((runDocument texts result load metadata report).text 0 ++ "\n") :=
  MultiProcessTraceJsonWriter.toJson_eq load metadata h.verified fun _ hentry =>
    eventDocument_readable_of_mem texts h.numbers hentry

/-- The document of a run that can be written can be read back. -/
theorem Writable.readable (h : Writable result load report) (texts : EventTexts)
    (metadata : MultiProcessTraceJsonMetadata) :
    (runDocument texts result load metadata report).Readable :=
  runDocument_readable texts h.numbers h.loads metadata h.report

/-- What the writer writes is a multi-process trace to the reader. -/
theorem Writable.validate (h : Writable result load report) (texts : EventTexts)
    (metadata : MultiProcessTraceJsonMetadata) (label : Str) :
    validateTraceDocument (runDocument texts result load metadata report).value label
      = .ok .MultiProcess :=
  validate_runDocument texts result load metadata report h.count label

/-- Two written runs are strictly equal exactly when they are the same text. -/
theorem Writable.compareText_strict (h : Writable result load report)
    (h' : Writable result' load' report') (texts texts' : EventTexts)
    (metadata metadata' : MultiProcessTraceJsonMetadata) :
    ∃ text text' diff, toJson texts result load metadata = .ok text ∧
      toJson texts' result' load' metadata' = .ok text' ∧
      compareText text text' ⟨true⟩ = .ok diff ∧ (diff.equal = true ↔ text = text') := by
  have hview (document : Document) : comparedView ⟨true⟩ document.value .MultiProcess
      = .ok document.value := rfl
  have hreadable := h.readable texts metadata
  have hreadable' := h'.readable texts' metadata'
  obtain ⟨diff, hdiff, hequal⟩ := compareText_text hreadable hreadable' (h.validate texts metadata)
    (h'.validate texts' metadata') (hview _) (hview _) runDocument_eq_of_value
  refine ⟨_, _, diff, h.toJson_eq texts metadata, h'.toJson_eq texts' metadata', hdiff,
    hequal.trans ⟨fun heq => by rw [heq], fun heq => ?_⟩⟩
  apply runDocument_eq_of_value
  apply Except.ok.inj
  rw [← parse_text hreadable, heq, parse_text hreadable']

/-- Two written runs are architecturally equal exactly when they name the same mode, agree on what
happened and were found to violate the same invariants. -/
theorem Writable.compareText_architectural (h : Writable result load report)
    (h' : Writable result' load' report') (texts texts' : EventTexts)
    (metadata metadata' : MultiProcessTraceJsonMetadata) :
    ∃ text text' diff, toJson texts result load metadata = .ok text ∧
      toJson texts' result' load' metadata' = .ok text' ∧
      compareText text text' ⟨false⟩ = .ok diff ∧
      (diff.equal = true ↔ metadata.execution_mode = metadata'.execution_mode
        ∧ result.Agrees load result' load'
        ∧ List.Forall₂ MultiProcessInvariantViolation.Agrees report.violations report'.violations) := by
  have hview (texts : EventTexts) (result : MultiProcessRunResult) (load : ℕ → ProcessLoad)
      (metadata : MultiProcessTraceJsonMetadata) (report : MultiProcessInvariantReport) :
      comparedView ⟨false⟩ (runDocument texts result load metadata report).value .MultiProcess
        = .ok (runView result load metadata report).value :=
    multiProcessArchitecturalView_runDocument texts result load metadata report
  have hviews := runView_alike result result' load load' metadata metadata' report report'
  obtain ⟨diff, hdiff, hequal⟩ := compareText_text (h.readable texts metadata)
    (h'.readable texts' metadata') (h.validate texts metadata) (h'.validate texts' metadata')
    (hview texts result load metadata report) (hview texts' result' load' metadata' report')
    hviews.eq_of_value
  exact ⟨_, _, diff, h.toJson_eq texts metadata, h'.toJson_eq texts' metadata', hdiff,
    hequal.trans runView_inj⟩

end Runs

/-! ## Written runs -/

section Written

variable {H H' : Type} [LongDouble] {host : H} {host' : H'} {images images' : List ProcessImage}
  {options : MultiProcessRunOptions H} {options' : MultiProcessRunOptions H'}
  {result result' : MultiProcessRunResult} {load load' : ℕ → ProcessLoad}

/-- The verifier finds nothing in what a run returns, so the rest is a matter of numbers in range. -/
theorem writable_of_runImages (hadmissible : Admissible options.software_interrupt_handler)
    (hrun : MultiProcessRunner.runImages host images options = .ok result)
    (h : result.Representable) (hload : ∀ index, (load index).Representable) :
    Writable result load ⟨[]⟩ := by
  simp only [MultiProcessRunner.runImages, Library.bind_eq_ok] at hrun
  obtain ⟨booted, hboot, s, hloop, hfinish⟩ := hrun
  obtain ⟨htraced, hconsistent⟩ :=
    MultiProcessRunner.consistent_of_runLoop hadmissible hboot hloop
  have hshown := MultiProcessRunner.finish_eq_ok hfinish
  refine ⟨h, hload, MultiProcessRunner.verify_of_consistent hshown htraced hconsistent,
    ⟨by decide, List.forall_mem_nil _⟩, ?_⟩
  rw [hshown.process_count, ← hshown.pids, List.length_map]

/-- What is written of a run is read back, with a report that passed, and is valid. -/
theorem written_run_reads_back (texts : EventTexts) (metadata : MultiProcessTraceJsonMetadata)
    (hadmissible : Admissible options.software_interrupt_handler)
    (hrun : MultiProcessRunner.runImages host images options = .ok result)
    (h : result.Representable) (hload : ∀ index, (load index).Representable) :
    ∃ text, toJson texts result load metadata = .ok text ∧
      parse text = .ok (runDocument texts result load metadata ⟨[]⟩).value ∧
      ∀ label, validateTraceDocument (runDocument texts result load metadata ⟨[]⟩).value label
        = .ok .MultiProcess := by
  have hwritable := writable_of_runImages hadmissible hrun h hload
  exact ⟨_, hwritable.toJson_eq texts metadata, parse_text (hwritable.readable texts metadata),
    hwritable.validate texts metadata⟩

/-- Two written runs, on whatever hosts, are strictly equal exactly when they are the same text, and
architecturally equal exactly when they name the same mode and agree on what happened. -/
theorem written_runs_compare (texts texts' : EventTexts)
    (metadata metadata' : MultiProcessTraceJsonMetadata)
    (hadmissible : Admissible options.software_interrupt_handler)
    (hrun : MultiProcessRunner.runImages host images options = .ok result)
    (h : result.Representable) (hload : ∀ index, (load index).Representable)
    (hadmissible' : Admissible options'.software_interrupt_handler)
    (hrun' : MultiProcessRunner.runImages host' images' options' = .ok result')
    (h' : result'.Representable) (hload' : ∀ index, (load' index).Representable) :
    ∃ text text', toJson texts result load metadata = .ok text ∧
      toJson texts' result' load' metadata' = .ok text' ∧
      (∃ strict, compareText text text' ⟨true⟩ = .ok strict ∧ (strict.equal = true ↔ text = text')) ∧
      ∃ diff, compareText text text' ⟨false⟩ = .ok diff ∧
        (diff.equal = true ↔ metadata.execution_mode = metadata'.execution_mode
          ∧ result.Agrees load result' load') := by
  have hwritable := writable_of_runImages hadmissible hrun h hload
  have hwritable' := writable_of_runImages hadmissible' hrun' h' hload'
  obtain ⟨text, text', strict, htext, htext', hstrict, hequal⟩ :=
    hwritable.compareText_strict hwritable' texts texts' metadata metadata'
  obtain ⟨_, _, diff, hagain, hagain', hdiff, hagrees⟩ :=
    hwritable.compareText_architectural hwritable' texts texts' metadata metadata'
  obtain rfl := Except.ok.inj (htext.symm.trans hagain)
  obtain rfl := Except.ok.inj (htext'.symm.trans hagain')
  refine ⟨text, text', htext, htext', ⟨strict, hstrict, hequal⟩, diff, hdiff, hagrees.trans ?_⟩
  exact ⟨fun ⟨hmode, hsame, _⟩ => ⟨hmode, hsame⟩, fun ⟨hmode, hsame⟩ => ⟨hmode, hsame, .nil⟩⟩

end Written

/-- Processes that were loaded from nowhere in particular. -/
def noLoad (_ : ℕ) : ProcessLoad := ⟨[], false, 0, 0, 0⟩

/-- The load of a process without an executable fits the reader. -/
theorem noLoad_representable (index : ℕ) : (noLoad index).Representable :=
  ⟨by show ZeroCpu.Representable 0; decide, by show ZeroCpu.Representable 0; decide,
    by show ZeroCpu.Representable 0; decide⟩

/-- Two processes, one of which makes a call and ends, while the other faults. -/
theorem exists_representable_run :
    letI : LongDouble := LongDouble.x87
    ∃ result, MultiProcessRunner.runImages freshFilesystem [syscallImage, trapImage] syscallOptions
        = .ok result ∧ result.Representable ∧ result.software_interrupts.length = 1 := by
  have hruns : (@MultiProcessRunner.runImages _ LongDouble.x87 freshFilesystem
      [syscallImage, trapImage] syscallOptions).toOption.map (fun result =>
        (decide result.Representable, result.software_interrupts.length)) = some (true, 1) := by
    decide +kernel
  cases hrun : @MultiProcessRunner.runImages _ LongDouble.x87 freshFilesystem
      [syscallImage, trapImage] syscallOptions with
  | error e =>
    rw [hrun] at hruns
    cases hruns
  | ok result =>
    rw [hrun] at hruns
    obtain ⟨hnumbers, hcalls⟩ := Prod.ext_iff.mp (Option.some.inj hruns)
    exact ⟨result, rfl, of_decide_eq_true hnumbers, hcalls⟩

/-- A run of two processes. -/
theorem written_run_reads_back_two :
    letI : LongDouble := LongDouble.x87
    ∃ result text, MultiProcessRunner.runImages freshFilesystem [syscallImage, trapImage] syscallOptions
        = .ok result
      ∧ toJson (sameTexts "step") result noLoad {} = .ok text
      ∧ ∃ root, parse text = .ok root ∧ validateTraceDocument root "run" = .ok .MultiProcess := by
  obtain ⟨result, hrun, hnumbers, -⟩ := exists_representable_run
  obtain ⟨text, htext, hparse, hvalid⟩ := @written_run_reads_back _ LongDouble.x87 _ _ _ _ _
    (sameTexts "step") {} (.dispatcher _) hrun hnumbers noLoad_representable
  exact ⟨result, text, hrun, htext, _, hparse, hvalid _⟩

/-- Two runs of two processes. -/
theorem written_runs_compare_two :
    letI : LongDouble := LongDouble.x87
    ∃ result text text' diff,
      MultiProcessRunner.runImages freshFilesystem [syscallImage, trapImage] syscallOptions = .ok result
      ∧ toJson (sameTexts "step") result noLoad {} = .ok text
      ∧ toJson (sameTexts "stage") result noLoad {} = .ok text'
      ∧ compareText text text' ⟨false⟩ = .ok diff ∧ diff.equal = true := by
  obtain ⟨result, hrun, hnumbers, -⟩ := exists_representable_run
  obtain ⟨text, text', htext, htext', -, diff, hdiff, hagrees⟩ := @written_runs_compare _ _
    LongDouble.x87 _ _ _ _ _ _ _ _ _ _ (sameTexts "step") (sameTexts "stage") {} {} (.dispatcher _) hrun
    hnumbers noLoad_representable (.dispatcher _) hrun hnumbers noLoad_representable
  refine ⟨result, text, text', diff, hrun, htext, htext', hdiff, hagrees.mpr ⟨rfl, ?_⟩⟩
  exact .refl result noLoad

end MultiProcessTraceJsonWriter

end ZeroCpu.Sys
