import ZeroCpu.System.InvariantVerifier
import ZeroCpu.System.TraceReplay

/-!
# What the verifier's loops accept

Each loop of `verify` finds nothing in records that meet a condition on the whole list: lifecycle
steps that increase within the run, known PIDs, an unbroken chain of events for every process. The
conditions are those that a run keeps.
-/

namespace ZeroCpu.Sys

open Library Kernel

/-- The lifecycle steps of records of a run of `n` steps. -/
structure InOrder (n : ℕ) (steps : List ℕ) : Prop where
  strict : steps.Pairwise (· < ·)
  inRange : ∀ step ∈ steps, step ≠ 0 ∧ step ≤ n

namespace InOrder

theorem nil (n : ℕ) : InOrder n [] := ⟨.nil, nofun⟩

/-- A run of one more step has the records so far and at most one of that step. -/
theorem extend {α : Type} {n : ℕ} {records new : List α} {lifecycleStepOf : α → ℕ}
    (h : InOrder n (records.map lifecycleStepOf)) (hlength : new.length ≤ 1)
    (hnew : ∀ record ∈ new, lifecycleStepOf record = n + 1) :
    InOrder (n + 1) ((records ++ new).map lifecycleStepOf) := by
  rw [List.map_append]
  refine ⟨List.pairwise_append.mpr ⟨h.strict, ?_, fun step hstep step' hstep' => ?_⟩,
    fun step hstep => ?_⟩
  · rcases new with _ | ⟨record, _ | ⟨record', rest⟩⟩
    · exact .nil
    · exact List.pairwise_singleton _ _
    · simp at hlength
  · obtain ⟨record, hrecord, rfl⟩ := List.mem_map.mp hstep'
    have := (h.inRange step hstep).2
    rw [hnew record hrecord]
    omega
  · rcases List.mem_append.mp hstep with hstep | hstep
    · obtain ⟨hpos, hle⟩ := h.inRange step hstep
      exact ⟨hpos, by omega⟩
    · obtain ⟨record, hrecord, rfl⟩ := List.mem_map.mp hstep
      rw [hnew record hrecord]
      exact ⟨by omega, le_rfl⟩

theorem left {n : ℕ} {steps new : List ℕ} (h : InOrder n (steps ++ new)) : InOrder n steps :=
  ⟨(List.pairwise_append.mp h.strict).1, fun step hstep => h.inRange step (List.mem_append_left _ hstep)⟩

end InOrder

namespace MultiProcessInvariantVerifier

/-! ## Lifecycle steps -/

/-- The order after records of the given steps. -/
def StepOrder.after (steps : List ℕ) : StepOrder := ⟨steps.length, steps.getLast?.getD 0⟩

/-- The order after one more step. -/
theorem StepOrder.after_concat (steps : List ℕ) (step : ℕ) :
    StepOrder.after (steps ++ [step]) = (StepOrder.after steps).next step := by
  rw [after, after, next, List.length_append, List.getLast?_concat]
  rfl

/-- The two checks of the last of some records in order. -/
theorem stepViolations_eq_nil {n step : ℕ} {steps : List ℕ} {pid : ProcessId}
    {outOfRange notStrict : Str × Str} (h : InOrder n (steps ++ [step])) :
    stepViolations outOfRange notStrict n (StepOrder.after steps) step pid = [] := by
  obtain ⟨hpos, hle⟩ := h.inRange step (List.mem_append_right _ (List.mem_singleton_self step))
  rw [stepViolations, List.append_eq_nil_iff, violationIf_eq_nil, violationIf_eq_nil]
  refine ⟨by omega, ?_⟩
  rintro ⟨hindex, hlate⟩
  have hne : steps ≠ [] := by
    rintro rfl
    exact hindex rfl
  have hlast := (List.pairwise_append.mp h.strict).2.2 (steps.getLast hne) (List.getLast_mem hne) step
    (List.mem_singleton_self step)
  rw [StepOrder.after, List.getLast?_eq_getLast_of_ne_nil hne] at hlate
  exact absurd hlate (not_le.mpr hlast)

/-! ## Processes -/

/-- The scan of distinct processes finds nothing and counts. -/
theorem scanProcesses_eq {processes : List ProcessRunSummary}
    (hnodup : (processes.map ProcessRunSummary.pid).Nodup)
    (hne : ∀ process ∈ processes, process.pid ≠ 0) :
    scanProcesses processes = ⟨(processes.map ProcessRunSummary.pid).reverse,
      processes.countP ProcessRunSummary.terminated, processes.countP ProcessRunSummary.faulted, []⟩ := by
  induction processes using List.reverseRecOn with
  | nil => rfl
  | append_singleton rest process ih =>
    rw [List.map_append] at hnodup
    obtain ⟨hrest, -, hdisjoint⟩ := List.nodup_append.mp hnodup
    have hfresh : ¬ (process.pid = 0 ∨ process.pid ∈ (rest.map ProcessRunSummary.pid).reverse) := by
      rw [List.mem_reverse, not_or]
      refine ⟨hne process (List.mem_append_right _ (List.mem_singleton_self process)), fun hmem => ?_⟩
      exact hdisjoint _ hmem _ (List.mem_singleton_self _) rfl
    have ih := ih hrest fun other hother => hne other (List.mem_append_left _ hother)
    rw [scanProcesses] at ih
    rw [scanProcesses, List.foldl_append, ih, List.foldl_cons, List.foldl_nil, scanProcess]
    simp only [if_neg hfresh, violationIf_eq_nil.mpr hfresh, List.append_nil, List.map_append,
      List.map_cons, List.map_nil, List.reverse_append, List.reverse_cons, List.reverse_nil,
      List.nil_append, List.countP_append, List.countP_cons, List.countP_nil, List.singleton_append,
      Nat.zero_add]

/-! ## Executions -/

/-- The events of every process start where the one before them ended. -/
def Unbroken (records : List ProcessExecutionTraceRecord) : Prop :=
  ∀ pid, (eventsOf pid records).IsChain fun event next => next.pcBefore = event.pcAfter

/-- The scan of unbroken executions finds nothing. -/
theorem scanExecutions_eq {n : ℕ} (processIds : List ProcessId)
    {records : List ProcessExecutionTraceRecord}
    (horder : InOrder n (records.map ProcessExecutionTraceRecord.lifecycle_step))
    (hknown : ∀ record ∈ records, record.pid ∈ processIds) (hunbroken : Unbroken records) :
    records.foldl (scanExecution n processIds) ⟨.first, fun _ => none, []⟩
      = ⟨.after (records.map ProcessExecutionTraceRecord.lifecycle_step),
        fun pid => (eventsOf pid records).getLast?.map TraceEvent.pcAfter, []⟩ := by
  induction records using List.reverseRecOn with
  | nil => rfl
  | append_singleton rest record ih =>
    rw [List.map_append] at horder
    have hunbroken' : Unbroken rest := by
      intro pid
      have hchain := hunbroken pid
      rw [MultiProcessRunner.eventsOf_append] at hchain
      split_ifs at hchain
      · exact hchain.left_of_append
      · exact hchain
    have hknown' := hknown record (List.mem_append_right _ (List.mem_singleton_self record))
    -- The event resumes from the one that the loop has seen last.
    have hresumes : resumeViolations ((eventsOf record.pid rest).getLast?.map TraceEvent.pcAfter)
        record = [] := by
      cases hlast : (eventsOf record.pid rest).getLast? with
      | none => rfl
      | some event =>
        have hchain := hunbroken record.pid
        rw [MultiProcessRunner.eventsOf_append, if_pos rfl, List.isChain_append] at hchain
        exact violationIf_eq_nil.mpr (not_not.mpr (hchain.2.2 event hlast record.event rfl))
    rw [List.foldl_append, ih horder.left (fun other hother => hknown other (List.mem_append_left _ hother))
      hunbroken', List.foldl_cons, List.foldl_nil, scanExecution]
    simp only [hresumes, stepViolations_eq_nil horder, violationIf_eq_nil.mpr (not_not.mpr hknown'),
      List.append_nil, List.map_append, List.map_cons, List.map_nil, StepOrder.after_concat]
    refine congrArg (fun last => ExecutionScan.mk _ last []) (funext fun pid => ?_)
    rw [Function.update_apply, MultiProcessRunner.eventsOf_append]
    by_cases hpid : pid = record.pid
    · rw [if_pos hpid, if_pos hpid.symm, List.getLast?_concat]
      rfl
    · rw [if_neg hpid, if_neg (Ne.symm hpid)]

/-! ## Software interrupts -/

/-- What a record of a host call needs beside its place in the order. -/
structure Answered (result : MultiProcessRunResult) (processIds : List ProcessId)
    (record : ProcessSoftwareInterruptTraceRecord) : Prop where
  known : record.pid ∈ processIds
  executed : ∃ execution ∈ result.execution_trace,
    execution.lifecycle_step = record.lifecycle_step ∧ execution.pid = record.pid
  ended : record.observation.result.disposition = .TerminateProcess →
    (∃ contextSwitch ∈ result.context_switches,
      contextSwitch.lifecycle_step = record.lifecycle_step
        ∧ contextSwitch.from_pid = record.pid ∧ contextSwitch.caused_by_termination = true)
    ∧ ∃ process, result.process record.pid = .ok process ∧ process.has_exit_code = true
      ∧ process.exit_code = record.observation.result.exit_code

/-- An answered call causes no violation. -/
theorem terminationViolations_eq {result : MultiProcessRunResult} {processIds : List ProcessId}
    {record : ProcessSoftwareInterruptTraceRecord} (h : Answered result processIds record) :
    terminationViolations result processIds record = .ok [] := by
  rw [terminationViolations]
  split_ifs with hends hknown
  · rfl
  · obtain ⟨hhandoff, process, hprocess, hexit, hcode⟩ := h.ended (not_not.mp hends)
    rw [hprocess, ok_bind, violationIf_eq_nil.mpr (not_not.mpr hhandoff), List.nil_append,
      violationIf_eq_nil.mpr]
    · rfl
    · rw [hexit, hcode]
      simp
  · exact absurd h.known hknown

/-- The scan of answered calls finds nothing. -/
theorem scanSoftwareInterrupts_eq {result : MultiProcessRunResult} {processIds : List ProcessId}
    {records : List ProcessSoftwareInterruptTraceRecord}
    (horder : InOrder result.lifecycle_steps
      (records.map ProcessSoftwareInterruptTraceRecord.lifecycle_step))
    (hanswered : ∀ record ∈ records, Answered result processIds record) :
    records.foldlM (scanSoftwareInterrupt result processIds) ⟨.first, []⟩
      = .ok ⟨.after (records.map ProcessSoftwareInterruptTraceRecord.lifecycle_step), []⟩ := by
  induction records using List.reverseRecOn with
  | nil => rfl
  | append_singleton rest record ih =>
    rw [List.map_append] at horder
    have hrecord := hanswered record (List.mem_append_right _ (List.mem_singleton_self record))
    rw [List.foldlM_append, ih horder.left fun other hother =>
      hanswered other (List.mem_append_left _ hother), ok_bind, List.foldlM_cons,
      scanSoftwareInterrupt, terminationViolations_eq hrecord, ok_bind]
    simp only [stepViolations_eq_nil horder, violationIf_eq_nil.mpr (not_not.mpr hrecord.known),
      violationIf_eq_nil.mpr (not_not.mpr hrecord.executed), List.append_nil, List.map_append,
      List.map_cons, List.map_nil, StepOrder.after_concat]
    rfl

/-! ## Context switches -/

/-- What a record of a context switch needs beside its place in the order. -/
structure Sound (processIds : List ProcessId) (record : ProcessContextSwitchTraceRecord) : Prop where
  source : record.from_pid ∈ processIds
  target : record.to_pid ≠ 0 → record.to_pid ∈ processIds
  changes : record.from_pid ≠ record.to_pid
  exclusive : ¬ (record.preempted = true ∧ record.caused_by_termination = true)
  vacant : record.to_pid = 0 → record.caused_by_termination = true

/-- A sound switch causes no violation. -/
theorem switchViolations_eq_nil {processIds : List ProcessId}
    {record : ProcessContextSwitchTraceRecord} (h : Sound processIds record) :
    switchViolations processIds record = [] := by
  simp only [switchViolations, List.append_eq_nil_iff, violationIf_eq_nil]
  refine ⟨⟨⟨⟨not_not.mpr h.source, fun hto => hto.2 (h.target hto.1)⟩, h.changes⟩, h.exclusive⟩, ?_⟩
  rintro ⟨hzero, hcause⟩
  rw [h.vacant hzero] at hcause
  cases hcause

/-- The scan of sound switches finds nothing and counts. -/
theorem scanSwitches_eq {n : ℕ} (processIds : List ProcessId)
    {records : List ProcessContextSwitchTraceRecord}
    (horder : InOrder n (records.map ProcessContextSwitchTraceRecord.lifecycle_step))
    (hsound : ∀ record ∈ records, Sound processIds record) :
    records.foldl (scanSwitch n processIds) ⟨.first, 0, 0, []⟩
      = ⟨.after (records.map ProcessContextSwitchTraceRecord.lifecycle_step),
        records.countP ProcessContextSwitchTraceRecord.preempted,
        records.countP ProcessContextSwitchTraceRecord.caused_by_termination, []⟩ := by
  induction records using List.reverseRecOn with
  | nil => rfl
  | append_singleton rest record ih =>
    rw [List.map_append] at horder
    have hrecord := hsound record (List.mem_append_right _ (List.mem_singleton_self record))
    rw [List.foldl_append, ih horder.left fun other hother =>
      hsound other (List.mem_append_left _ hother), List.foldl_cons, List.foldl_nil, scanSwitch]
    simp only [stepViolations_eq_nil horder, switchViolations_eq_nil hrecord, List.append_nil,
      List.map_append, List.map_cons, List.map_nil, StepOrder.after_concat, List.countP_append,
      List.countP_cons, List.countP_nil, Nat.zero_add]

/-! ## The timeline -/

/-- Records of other lifecycle steps at the end of the list do not matter. -/
theorem recordAt_append {α : Type} {lifecycleStepOf : α → ℕ} {records new : List α}
    {lifecycleStep : ℕ} (hnew : ∀ record ∈ new, lifecycleStepOf record ≠ lifecycleStep) (index : ℕ) :
    recordAt lifecycleStepOf (records ++ new) index lifecycleStep
      = recordAt lifecycleStepOf records index lifecycleStep := by
  rw [recordAt, recordAt, List.getElem?_append]
  split_ifs with hlt
  · rfl
  · rw [List.getElem?_eq_none (not_lt.mp hlt)]
    cases hrecord : new[index - records.length]? with
    | none => rfl
    | some record =>
      refine Option.filter_eq_none_iff.mpr fun other hother => ?_
      obtain rfl := Option.some.inj hother
      simpa using hnew record (List.mem_of_getElem? hrecord)

/-- Records of later lifecycle steps do not change the timeline. -/
theorem timeline_append {executions newExecutions : List ProcessExecutionTraceRecord}
    {switches newSwitches : List ProcessContextSwitchTraceRecord} {n : ℕ}
    (hexecutions : ∀ record ∈ newExecutions, record.lifecycle_step = n + 1)
    (hswitches : ∀ record ∈ newSwitches, record.lifecycle_step = n + 1) :
    timeline (executions ++ newExecutions) (switches ++ newSwitches) n
      = timeline executions switches n := by
  refine List.foldl_ext _ _ _ fun current step hstep => ?_
  have hle : step < n + 1 := by
    have := (List.mem_range'_1.mp hstep).2
    omega
  have hexecutions' : ∀ record ∈ newExecutions, record.lifecycle_step ≠ step := fun record hrecord =>
    hexecutions record hrecord ▸ hle.ne'
  have hswitches' : ∀ record ∈ newSwitches, record.lifecycle_step ≠ step := fun record hrecord =>
    hswitches record hrecord ▸ hle.ne'
  simp only [Timeline.advance, recordAt_append hexecutions', recordAt_append hswitches']

/-- The timeline after one more step. -/
theorem timeline_succ (executions : List ProcessExecutionTraceRecord)
    (switches : List ProcessContextSwitchTraceRecord) (n : ℕ) :
    timeline executions switches (n + 1)
      = Timeline.advance executions switches (timeline executions switches n) (n + 1) := by
  rw [timeline, List.range'_1_concat, List.foldl_append, Nat.add_comm 1 n]
  rfl

/-- The record right behind those seen so far. -/
theorem recordAt_length {α : Type} {lifecycleStepOf : α → ℕ} (records : List α) {new : Option α}
    {lifecycleStep : ℕ} (hnew : ∀ record ∈ new, lifecycleStepOf record = lifecycleStep) :
    recordAt lifecycleStepOf (records ++ new.toList) records.length lifecycleStep = new := by
  rw [recordAt, List.getElem?_append_right le_rfl, Nat.sub_self]
  cases new with
  | none => rfl
  | some record =>
    show Option.filter _ (some record) = some record
    exact Option.filter_eq_some_iff.mpr ⟨rfl, by simpa using hnew record rfl⟩

end MultiProcessInvariantVerifier

end ZeroCpu.Sys
