import ZeroCpu.System.Reports
import ZeroCpu.System.VerifierScans

/-!
# The runner satisfies its verifier

Reference: `src/system/MultiProcessRunner.cpp`, `src/system/MultiProcessInvariantVerifier.cpp`.

`Consistent` is what the records, the counters and the table of a run have to do with each other after
every round. The verifier's loops accept the records of a consistent run, so `verify` has nothing to
report about a result of `runImages`.
-/

namespace ZeroCpu.Sys

open Library Kernel

variable {H : Type}

namespace MultiProcessRunner

open ProcessLifecycleManager MultiProcessInvariantVerifier

variable {images : List ProcessImage} {options : MultiProcessRunOptions H} {s s' : RunState H}
  {event : Option TraceEvent} {observation : Option SoftwareInterruptObservation}
  {moved : CPU (Board H)} {preempted : Bool} {result : ProcessLifecycleStepResult}

/-! ## Counting processes -/

section Counting

variable {table table' : ProcessTable} {q : ProcessControlBlock → Bool}

/-- Of the processes that have terminated, those counted before are counted after. -/
theorem any_eq_of_endsAtMost {ended : Option ProcessId} (hq : ∀ p, q p = true → p.state = .Terminated)
    (h : EndsAtMost table ended table') {pid : ProcessId} (hne : ended ≠ some pid) :
    (table'.processes.find? pid).any q = (table.processes.find? pid).any q := by
  rw [Bool.eq_iff_iff, Option.any_eq_true, Option.any_eq_true]
  constructor
  · rintro ⟨process, hp, hqp⟩
    exact ⟨process, (h.fresh pid process hp (hq process hqp)).resolve_right hne, hqp⟩
  · rintro ⟨process, hp, hqp⟩
    exact ⟨process, h.kept pid process hp (hq process hqp), hqp⟩

/-- The process that has ended is counted if it is one of those to count. -/
theorem countP_endsAtMost {keys : List ProcessId} (hnodup : keys.Nodup)
    (hq : ∀ p, q p = true → p.state = .Terminated) {pid : ProcessId} (hmem : pid ∈ keys)
    (h : EndsAtMost table (some pid) table') (hbefore : (table.processes.find? pid).any q = false)
    {process : ProcessControlBlock} (hafter : table'.processes.find? pid = some process) :
    keys.countP (fun other => (table'.processes.find? other).any q)
      = keys.countP (fun other => (table.processes.find? other).any q) + (q process).toNat := by
  have hperm := List.perm_cons_erase hmem
  have hothers : ∀ other ∈ keys.erase pid,
      (table'.processes.find? other).any q = (table.processes.find? other).any q := by
    intro other hother
    refine any_eq_of_endsAtMost hq h fun heq => ?_
    obtain rfl := Option.some.inj heq
    exact hnodup.not_mem_erase hother
  rw [hperm.countP_eq, hperm.countP_eq, List.countP_cons, List.countP_cons, hafter, hbefore,
    List.countP_congr fun other hother => by rw [hothers other hother]]
  cases hqp : q process <;> simp [hqp]

end Counting

/-- `ProcessRunSummary::terminated` of a process in the table. -/
def isEnded (process : ProcessControlBlock) : Bool :=
  process.state == .Terminated && process.hasExitCode

/-- `ProcessRunSummary::faulted` of a process in the table. -/
def isFaulted (process : ProcessControlBlock) : Bool :=
  isEnded process && process.terminationKind == .CpuFault

/-- A process that has ended is terminated. -/
theorem isEnded_state (process : ProcessControlBlock) (h : isEnded process = true) :
    process.state = .Terminated := by
  rw [isEnded, Bool.and_eq_true, beq_iff_eq] at h
  exact h.1

/-- A process that has faulted is terminated. -/
theorem isFaulted_state (process : ProcessControlBlock) (h : isFaulted process = true) :
    process.state = .Terminated := by
  rw [isFaulted, Bool.and_eq_true] at h
  exact isEnded_state process h.1

/-! ## The invariant -/

/-- The counters agree with the records and with the table. -/
structure Counted (s : RunState H) : Prop where
  preempted : s.contextSwitches.countP ProcessContextSwitchTraceRecord.preempted
    = s.runtime.preemptive.context_switch_count
  switched_le : s.runtime.preemptive.context_switch_count ≤ s.runtime.preemptive.preemption_count
  handedOff : s.contextSwitches.countP ProcessContextSwitchTraceRecord.caused_by_termination
    = s.runtime.lifecycle.termination_count
  ended : s.runtime.table.processes.keys.countP
      (fun pid => (s.runtime.table.processes.find? pid).any isEnded)
    = s.runtime.lifecycle.termination_count
  faulted : s.runtime.table.processes.keys.countP
      (fun pid => (s.runtime.table.processes.find? pid).any isFaulted)
    = s.runtime.lifecycle.fault_count

/-- The timeline of the records so far ends with the process on the CPU. -/
structure OnTime (s : RunState H) : Prop where
  timeline : timeline s.executionTrace s.contextSwitches s.lifecycleSteps
    = ⟨s.executionTrace.length, s.contextSwitches.length,
      if s.lifecycleSteps = 0 then 0 else s.runtime.table.running_pid, []⟩
  /-- The first round has no request to service, so that it is recorded. -/
  quiet : s.lifecycleSteps = 0 → s.runtime.board.controller.pending = []
  running : s.runtimeState = .Running ↔ s.runtime.table.running_pid ≠ 0

/-- A recorded host call was executed, and one that ends its process has ended it. -/
structure CallRecorded (s : RunState H) (record : ProcessSoftwareInterruptTraceRecord) : Prop where
  known : record.pid ∈ s.runtime.table.processes.keys
  executed : ∃ execution ∈ s.executionTrace,
    execution.lifecycle_step = record.lifecycle_step ∧ execution.pid = record.pid
  ended : record.observation.result.disposition = .TerminateProcess →
    (∃ contextSwitch ∈ s.contextSwitches, contextSwitch.lifecycle_step = record.lifecycle_step
      ∧ contextSwitch.from_pid = record.pid ∧ contextSwitch.caused_by_termination = true)
    ∧ ∃ process, s.runtime.table.processes.find? record.pid = some process
      ∧ isEnded process = true ∧ process.exitCode = record.observation.result.exit_code

/-- What records, counters and table have to do with each other. -/
structure Consistent (s : RunState H) : Prop where
  executions : InOrder s.lifecycleSteps
    (s.executionTrace.map ProcessExecutionTraceRecord.lifecycle_step)
  softwareInterrupts : InOrder s.lifecycleSteps
    (s.softwareInterrupts.map ProcessSoftwareInterruptTraceRecord.lifecycle_step)
  contextSwitches : InOrder s.lifecycleSteps
    (s.contextSwitches.map ProcessContextSwitchTraceRecord.lifecycle_step)
  executed : ∀ record ∈ s.executionTrace, record.pid ∈ s.runtime.table.processes.keys
  calls : ∀ record ∈ s.softwareInterrupts, CallRecorded s record
  switches : ∀ record ∈ s.contextSwitches, Sound s.runtime.table.processes.keys record
  counted : Counted s
  onTime : OnTime s

/-! ## A round keeps it -/

/-- The PIDs of the table, before and after a round. -/
structure SamePids (s s' : RunState H) : Prop where
  keys : s'.runtime.table.processes.keys = s.runtime.table.processes.keys
  before : s.runtime.table.Invariant
  after : s'.runtime.table.Invariant

/-- The running process is in the table. -/
theorem mem_keys_running {table : ProcessTable} (hinv : table.Invariant)
    (hne : table.running_pid ≠ 0) : table.running_pid ∈ table.processes.keys := by
  obtain ⟨process, hp, -⟩ := (hinv.running table.running_pid).mp ⟨rfl, hne⟩
  exact (SortedMap.mem_keys_iff _ _).mpr (Option.isSome_iff_exists.mpr ⟨process, hp⟩)

theorem nodup_keys (table : ProcessTable) : table.processes.keys.Nodup :=
  table.processes.keys_sorted.imp ne_of_lt

/-- A round records a switch when another process runs afterwards. -/
theorem switchOf_eq_some {pid : ProcessId} {ended : Bool} {record : ProcessContextSwitchTraceRecord}
    (h : record ∈ switchOf s pid preempted ended) :
    s.runtime.table.running_pid ≠ pid
      ∧ record = ⟨s.lifecycleSteps + 1, s.runtime.table.running_pid, pid, preempted, ended⟩ := by
  rw [switchOf] at h
  split_ifs at h with hne
  · exact ⟨hne, (Option.some.inj h).symm⟩
  · cases h

/-- A process that ends has ended, and has faulted when its CPU has. -/
theorem isEnded_endedOn {cpu : CPU (Board H)} {normalExitCode : Word} {faulted : Bool}
    {process : ProcessControlBlock} (h : EndedOn cpu normalExitCode faulted process) :
    isEnded process = true ∧ isFaulted process = faulted := by
  have hended : isEnded process = true := by
    rw [isEnded, h.terminated, h.hasExitCode]
    rfl
  refine ⟨hended, ?_⟩
  rw [isFaulted, hended, Bool.true_and, Bool.eq_iff_iff, beq_iff_eq]
  exact h.kind

/-- A round counts `n` more processes when it ends one that counts for `n`. -/
theorem Reported.countP_eq (hreported : Reported s s' event observation moved preempted result)
    (hpids : SamePids s s') {q : ProcessControlBlock → Bool}
    (hq : ∀ p, q p = true → p.state = .Terminated) {n : ℕ}
    (hends : ∀ process, EndedOn moved s.runtime.lifecycle.normal_exit_code result.process_faulted
      process → result.process_terminated = true → (q process).toNat = n)
    (hstays : result.process_terminated = false → n = 0) :
    s'.runtime.table.processes.keys.countP
        (fun pid => (s'.runtime.table.processes.find? pid).any q)
      = s.runtime.table.processes.keys.countP
        (fun pid => (s.runtime.table.processes.find? pid).any q) + n := by
  have haccounts := hreported.accounts
  have htable := haccounts.table
  rw [hpids.keys]
  cases hterminated : result.process_terminated with
  | false =>
    rw [hterminated] at htable
    rw [hstays hterminated, Nat.add_zero]
    exact List.countP_congr fun pid _ => by rw [any_eq_of_endsAtMost hq htable nofun]
  | true =>
    rw [hterminated] at htable
    obtain ⟨process, hprocess, hended⟩ := haccounts.ended hterminated
    obtain ⟨running, hrunning, hstate⟩ :=
      (hpids.before.running s.runtime.table.running_pid).mp ⟨rfl, hreported.pid_ne⟩
    have hbefore : (s.runtime.table.processes.find? s.runtime.table.running_pid).any q = false := by
      rw [hrunning, Option.any_some]
      refine Bool.eq_false_iff.mpr fun hqr => ?_
      have hstate' := hq running hqr
      rw [hstate] at hstate'
      cases hstate'
    rw [countP_endsAtMost (nodup_keys _) hq (mem_keys_running hpids.before hreported.pid_ne) htable
      hbefore hprocess, hends process hended hterminated]

/-- A round keeps the counts. -/
theorem Counted.round (h : Counted s) (hpids : SamePids s s')
    (hreported : Reported s s' event observation moved preempted result) : Counted s' := by
  have haccounts := hreported.accounts
  have hswitch : ∀ f : ProcessContextSwitchTraceRecord → Bool, s'.contextSwitches.countP f
      = s.contextSwitches.countP f
        + if s.runtime.table.running_pid ≠ s'.runtime.table.running_pid
            ∧ f ⟨s.lifecycleSteps + 1, s.runtime.table.running_pid, s'.runtime.table.running_pid,
              preempted, result.process_terminated⟩ = true then 1 else 0 := by
    intro f
    rw [hreported.contextSwitches, List.countP_append, switchOf]
    by_cases hne : s.runtime.table.running_pid ≠ s'.runtime.table.running_pid
    · rw [if_pos hne]
      simp only [Option.toList_some, List.countP_cons, List.countP_nil, Nat.zero_add, hne,
        not_false_eq_true, ne_eq, true_and]
    · rw [if_neg hne, if_neg fun hboth => hne hboth.1]
      rfl
  refine ⟨?_, ?_, ?_, ?_, ?_⟩
  · rw [hswitch, h.preempted, haccounts.context_switch_count]
    simp only [and_comm]
  · have hle := h.switched_le
    rw [haccounts.context_switch_count, haccounts.preemption_count]
    cases preempted with
    | true =>
      show _ + (if _ then 1 else 0) ≤ _ + 1
      split_ifs <;> omega
    | false =>
      rw [if_neg fun hboth => Bool.false_ne_true hboth.1]
      omega
  · -- A termination takes the process off the CPU, so that it is recorded as a switch.
    rw [hswitch, h.handedOff, haccounts.termination_count]
    cases hterminated : result.process_terminated with
    | true => rw [if_pos ⟨(haccounts.leaves hterminated).symm, rfl⟩]; rfl
    | false => rw [if_neg fun hboth => Bool.false_ne_true hboth.2]; rfl
  · rw [hreported.countP_eq hpids isEnded_state (n := result.process_terminated.toNat)
      (fun process hended hterminated => ?_) fun hstays => ?_, h.ended, haccounts.termination_count]
    · rw [(isEnded_endedOn hended).1, hterminated]
    · rw [hstays]
      rfl
  · rw [hreported.countP_eq hpids isFaulted_state (n := result.process_faulted.toNat)
      (fun process hended _ => ?_) fun hstays => ?_, h.faulted, haccounts.fault_count]
    · rw [(isEnded_endedOn hended).2]
    · cases hfaulted : result.process_faulted with
      | true => cases (haccounts.faulted hfaulted).symm.trans hstays
      | false => rfl

/-- A recorded call stays recorded. -/
theorem CallRecorded.round {record : ProcessSoftwareInterruptTraceRecord} (h : CallRecorded s record)
    (hpids : SamePids s s')
    (hreported : Reported s s' event observation moved preempted result) : CallRecorded s' record where
  known := hpids.keys ▸ h.known
  executed := by
    obtain ⟨execution, hmem, hsame⟩ := h.executed
    exact ⟨execution, hreported.executionTrace ▸ List.mem_append_left _ hmem, hsame⟩
  ended hends := by
    obtain ⟨⟨contextSwitch, hmem, hsame⟩, process, hp, hended, hcode⟩ := h.ended hends
    refine ⟨⟨contextSwitch, hreported.contextSwitches ▸ List.mem_append_left _ hmem, hsame⟩, process,
      ?_, hended, hcode⟩
    exact hreported.accounts.table.kept record.pid process hp (isEnded_state process hended)

/-- The host call of a round is executed in it, and one that ends the process ends it in it. -/
theorem callRecorded_of_reported (hpids : SamePids s s')
    (hreported : Reported s s' event observation moved preempted result)
    {record : ProcessSoftwareInterruptTraceRecord} (hrecord : record ∈ observation.map (callOf s)) :
    CallRecorded s' record := by
  obtain ⟨call, hcall, rfl⟩ := Option.map_eq_some_iff.mp hrecord
  have haccounts := hreported.accounts
  refine ⟨?_, ?_, fun hends => ?_⟩
  · rw [hpids.keys]
    exact mem_keys_running hpids.before hreported.pid_ne
  · obtain ⟨executed, hexecuted⟩ := Option.isSome_iff_exists.mp
      (hreported.observed (Option.isSome_iff_exists.mpr ⟨call, hcall⟩))
    refine ⟨executionOf s executed, ?_, rfl, rfl⟩
    rw [hreported.executionTrace, hexecuted]
    exact List.mem_append_right _ (List.mem_singleton_self _)
  · obtain ⟨hterminated, hfaulted, hexit⟩ := hreported.exits call hcall hends
    obtain ⟨process, hprocess, hended⟩ := haccounts.ended hterminated
    refine ⟨⟨⟨s.lifecycleSteps + 1, s.runtime.table.running_pid, s'.runtime.table.running_pid,
      preempted, result.process_terminated⟩, ?_, rfl, rfl, hterminated⟩, process, hprocess,
      (isEnded_endedOn hended).1, ?_⟩
    · rw [hreported.contextSwitches, switchOf, if_pos (haccounts.leaves hterminated).symm]
      exact List.mem_append_right _ (List.mem_singleton_self _)
    · rw [hended.exitCode hfaulted, hexit]
      rfl

/-- The switch that a round records is sound. -/
theorem sound_of_reported (hpids : SamePids s s')
    (hreported : Reported s s' event observation moved preempted result)
    {record : ProcessContextSwitchTraceRecord}
    (hrecord : record ∈ switchOf s s'.runtime.table.running_pid preempted result.process_terminated) :
    Sound s'.runtime.table.processes.keys record := by
  obtain ⟨hne, rfl⟩ := switchOf_eq_some hrecord
  exact {
    source := hpids.keys ▸ mem_keys_running hpids.before hreported.pid_ne
    target := fun hto => mem_keys_running hpids.after hto
    changes := hne
    exclusive := hreported.accounts.exclusive
    vacant := hreported.accounts.vacant }

/-- The process on the CPU is the one that the records of the round name. -/
theorem knownPid_of_reported (h : OnTime s)
    (hreported : Reported s s' event observation moved preempted result) :
    knownPid (if s.lifecycleSteps = 0 then 0 else s.runtime.table.running_pid)
        (event.map (executionOf s))
        (switchOf s s'.runtime.table.running_pid preempted result.process_terminated)
      = s.runtime.table.running_pid := by
  unfold knownPid
  by_cases hzero : s.lifecycleSteps = 0
  · rw [if_pos hzero, if_neg (not_not.mpr rfl)]
    rcases hreported.logged (h.quiet hzero) with hevent | hterminated
    · obtain ⟨executed, rfl⟩ := Option.isSome_iff_exists.mp hevent
      rfl
    · cases event with
      | some executed => rfl
      | none =>
        rw [switchOf, if_pos (hreported.accounts.leaves hterminated).symm]
        rfl
  · rw [if_neg hzero, if_pos hreported.pid_ne]

/-- A round keeps its records in time. -/
theorem OnTime.round (h : OnTime s)
    (hreported : Reported s s' event observation moved preempted result) : OnTime s' := by
  have haccounts := hreported.accounts
  refine ⟨?_, fun hzero => ?_, ?_⟩
  · have hexecution : ∀ record ∈ event.map (executionOf s),
        record.lifecycle_step = s.lifecycleSteps + 1 ∧ record.pid = s.runtime.table.running_pid := by
      intro record hrecord
      obtain ⟨executed, -, rfl⟩ := Option.map_eq_some_iff.mp hrecord
      exact ⟨rfl, rfl⟩
    have hswitch : ∀ record ∈ switchOf s s'.runtime.table.running_pid preempted
        result.process_terminated, record.lifecycle_step = s.lifecycleSteps + 1 := by
      intro record hrecord
      obtain ⟨-, rfl⟩ := switchOf_eq_some hrecord
      rfl
    rw [hreported.lifecycleSteps, hreported.executionTrace, hreported.contextSwitches, timeline_succ,
      timeline_append (fun record hrecord => (hexecution record (Option.mem_toList.mp hrecord)).1)
        fun record hrecord => hswitch record (Option.mem_toList.mp hrecord),
      h.timeline, Timeline.advance, recordAt_length _ fun record hrecord => (hexecution record hrecord).1,
      recordAt_length _ hswitch, knownPid_of_reported h hreported]
    have hlater : s.lifecycleSteps + 1 ≠ 0 := Nat.succ_ne_zero _
    rw [if_neg hlater, switchOf]
    -- The timeline follows the running process: it changes exactly with a recorded switch.
    by_cases hne : s.runtime.table.running_pid ≠ s'.runtime.table.running_pid
    · rw [if_pos hne]
      cases event with
      | none => simp [violationIf]
      | some executed => simp [violationIf, executionOf]
    · rw [if_neg hne]
      cases event with
      | none => simpa using not_not.mp hne
      | some executed => simpa [violationIf, executionOf] using not_not.mp hne
  · rw [hreported.lifecycleSteps] at hzero
    cases hzero
  · rw [hreported.state]
    exact haccounts.state

/-- A round keeps the state consistent. -/
theorem Consistent.round (h : Consistent s) (hpids : SamePids s s')
    (hreported : Reported s s' event observation moved preempted result) : Consistent s' := by
  -- A round adds at most one record to each list.
  have hshort : ∀ {α : Type} (o : Option α), o.toList.length ≤ 1 := by
    intro α o
    cases o <;> simp
  refine {
    executions := ?_
    softwareInterrupts := ?_
    contextSwitches := ?_
    executed := fun record hrecord => ?_
    calls := fun record hrecord => ?_
    switches := fun record hrecord => ?_
    counted := h.counted.round hpids hreported
    onTime := h.onTime.round hreported }
  · rw [hreported.lifecycleSteps, hreported.executionTrace]
    refine h.executions.extend (hshort _) fun record hrecord => ?_
    obtain ⟨executed, -, rfl⟩ := Option.map_eq_some_iff.mp (Option.mem_toList.mp hrecord)
    rfl
  · rw [hreported.lifecycleSteps, hreported.softwareInterrupts]
    refine h.softwareInterrupts.extend (hshort _) fun record hrecord => ?_
    obtain ⟨call, -, rfl⟩ := Option.map_eq_some_iff.mp (Option.mem_toList.mp hrecord)
    rfl
  · rw [hreported.lifecycleSteps, hreported.contextSwitches]
    refine h.contextSwitches.extend (hshort _) fun record hrecord => ?_
    obtain ⟨-, rfl⟩ := switchOf_eq_some (Option.mem_toList.mp hrecord)
    rfl
  · rw [hpids.keys]
    rw [hreported.executionTrace] at hrecord
    rcases List.mem_append.mp hrecord with hrecord | hrecord
    · exact h.executed record hrecord
    · obtain ⟨executed, -, rfl⟩ := Option.map_eq_some_iff.mp (Option.mem_toList.mp hrecord)
      exact mem_keys_running hpids.before hreported.pid_ne
  · rw [hreported.softwareInterrupts] at hrecord
    rcases List.mem_append.mp hrecord with hrecord | hrecord
    · exact (h.calls record hrecord).round hpids hreported
    · exact callRecorded_of_reported hpids hreported (Option.mem_toList.mp hrecord)
  · rw [hreported.contextSwitches] at hrecord
    rcases List.mem_append.mp hrecord with hrecord | hrecord
    · rw [hpids.keys]
      exact h.switches record hrecord
    · exact sound_of_reported hpids hreported (Option.mem_toList.mp hrecord)

/-! ## Runs -/

/-- A run starts consistent, with nothing recorded. -/
theorem Booted.consistent {host : H} (h : Booted host images options s) :
    Consistent s ∧ Cleared options s := by
  obtain ⟨table, timer, selected, d, hcreated, -, hd, rfl⟩ := h.started
  have hends := endsAtMost_dispatchNext
    (d := ⟨attachedCpu host options timer table, table, .initial⟩) hcreated.invariant hd
  have hkeeps := keepsLive_dispatchNext hcreated.invariant (fun hr => absurd hcreated.running hr) hd
  -- The processes of the images have not terminated.
  have hlive : ∀ (q : ProcessControlBlock → Bool), (∀ p, q p = true → p.state = .Terminated) →
      d.table.processes.keys.countP (fun pid => (d.table.processes.find? pid).any q) = 0 := by
    intro q hq
    refine List.countP_eq_zero.mpr fun pid _ hany => ?_
    rw [Option.any_eq_true] at hany
    obtain ⟨process, hp, hqp⟩ := hany
    rcases hends.fresh pid process hp (hq process hqp) with hp' | hnone
    · obtain ⟨image, -, rfl⟩ := hcreated.find pid process hp'
      have hstate := hq _ hqp
      cases hstate
    · cases hnone
  have hpending : d.cpu.core.world.controller.pending = [] := by
    rw [hkeeps.connections.world]
    rfl
  have hcalls := sameCalls_of_dispatchNext
    (d := ⟨attachedCpu host options timer table, table, .initial⟩) hcreated.invariant hd
  refine ⟨?_, hkeeps.connections.softwareInterruptHandler, hcalls.observation⟩
  exact {
    executions := .nil 0
    softwareInterrupts := .nil 0
    contextSwitches := .nil 0
    executed := fun _ h => absurd h List.not_mem_nil
    calls := fun _ h => absurd h List.not_mem_nil
    switches := fun _ h => absurd h List.not_mem_nil
    counted := ⟨rfl, le_rfl, rfl, hlive isEnded isEnded_state, hlive isFaulted isFaulted_state⟩
    onTime := ⟨rfl, fun _ => hpending, fun _ => hkeeps.running, fun _ => rfl⟩ }

/-- Every state that a run reaches is consistent. -/
theorem consistent_of_runLoop [LongDouble] {host : H}
    (hadmissible : Admissible options.software_interrupt_handler)
    (hboot : boot host images options = .ok s) {rounds : ℕ} (hrun : runLoop rounds s = .ok s') :
    Traced images s' ∧ Consistent s' := by
  have hbooted := boot_eq_ok hboot
  have hall := runLoop_induct (P := fun s => Traced images s ∧ Cleared options s ∧ Consistent s)
    (fun s s' h hrunning hiterate => ?_)
    ⟨traced_of_booted hadmissible.recorded hbooted, hbooted.consistent.2, hbooted.consistent.1⟩ hrun
  · exact ⟨hall.1, hall.2.2⟩
  · obtain ⟨htraced, hcleared, hconsistent⟩ := h
    obtain ⟨⟨event, observation, moved, preempted, result, hreported⟩, hcleared'⟩ :=
      reported_of_iterate htraced hcleared hadmissible hrunning hiterate
    have htraced' := htraced.iterate hrunning hiterate
    have hpids : SamePids s s' :=
      ⟨htraced'.keys.trans htraced.keys.symm, htraced.invariant, htraced'.invariant⟩
    exact ⟨htraced', hcleared', hconsistent.round hpids hreported⟩

/-! ## The result -/

/-- What a summary says about the end of its process. -/
theorem makeSummary_ended {pid : ProcessId} {process : ProcessControlBlock} {cpu : CPU (Board H)}
    {isRunning : Bool} {summary : ProcessRunSummary}
    (h : makeSummary pid process cpu isRunning = .ok summary) :
    summary.terminated = isEnded process ∧ summary.faulted = isFaulted process
      ∧ (isEnded process = true →
        summary.has_exit_code = true ∧ summary.exit_code = process.exitCode) := by
  obtain ⟨context, -, h⟩ := bind_eq_ok.mp h
  obtain rfl := Except.ok.inj h
  refine ⟨rfl, ?_, fun hended => ?_⟩
  · rw [ProcessRunSummary.faulted, ProcessRunSummary.terminated, isFaulted, isEnded]
    cases process.hasExitCode with
    | true => rfl
    | false => rw [Bool.and_false, Bool.false_and, Bool.false_and]
  · rw [isEnded, Bool.and_eq_true] at hended
    refine ⟨hended.2, ?_⟩
    show (if process.hasExitCode then process.exitCode else 0) = process.exitCode
    rw [if_pos hended.2]

/-- A traced run has an unbroken execution of every process. -/
theorem unbroken_of_traced (h : Traced images s)
    (hexecuted : ∀ record ∈ s.executionTrace, record.pid ∈ s.runtime.table.processes.keys) :
    Unbroken s.executionTrace := by
  intro pid
  cases hp : s.runtime.table.processes.find? pid with
  | some process =>
    obtain ⟨image, now, -, hlogs, -⟩ := h.logs pid process hp
    exact hlogs.leads.isChain.imp fun _ _ hstate => congrArg CPUState.pc hstate
  | none =>
    -- Nothing is recorded of a process that is not in the table.
    have hnone : eventsOf pid s.executionTrace = [] := by
      rw [eventsOf, List.map_eq_nil_iff, List.filter_eq_nil_iff]
      intro record hrecord hpid
      have hmem := (SortedMap.mem_keys_iff _ _).mp (hexecuted record hrecord)
      rw [beq_iff_eq.mp hpid, hp] at hmem
      cases hmem
    rw [hnone]
    exact .nil

/-- A result with the records and counters of a consistent run. -/
structure ShownBy (s : RunState H) (result : MultiProcessRunResult) : Prop where
  runtime_state : result.runtime_state = s.runtimeState
  step_limit_reached : result.step_limit_reached = true → s.runtimeState = .Running
  lifecycle_steps : result.lifecycle_steps = s.lifecycleSteps
  process_count : result.process_count = s.runtime.table.processes.keys.length
  termination_count : result.termination_count = s.runtime.lifecycle.termination_count
  fault_count : result.fault_count = s.runtime.lifecycle.fault_count
  preemption_count : result.preemption_count = s.runtime.preemptive.preemption_count
  context_switch_count : result.context_switch_count = s.runtime.preemptive.context_switch_count
  execution_trace : result.execution_trace = s.executionTrace
  software_interrupts : result.software_interrupts = s.softwareInterrupts
  context_switches : result.context_switches = s.contextSwitches
  pids : result.processes.map ProcessRunSummary.pid = s.runtime.table.processes.keys
  processes : ∀ summary ∈ result.processes, ∃ process,
    s.runtime.table.processes.find? summary.pid = some process
      ∧ summary.terminated = isEnded process ∧ summary.faulted = isFaulted process
      ∧ (isEnded process = true →
        summary.has_exit_code = true ∧ summary.exit_code = process.exitCode)

/-- The result shows the last state. -/
theorem finish_eq_ok {result : MultiProcessRunResult} (h : finish options s = .ok result) :
    ShownBy s result := by
  obtain ⟨summaries, hsummaries, h⟩ := bind_eq_ok.mp h
  obtain rfl := Except.ok.inj h
  obtain ⟨hpids, hall⟩ := makeSummaries_eq_ok hsummaries
  refine ⟨rfl, fun hlimit => ?_, rfl, ?_, rfl, rfl, rfl, rfl, rfl, rfl, rfl, hpids,
    fun summary hsummary => ?_⟩
  · have hstate := (Bool.and_eq_true_iff.mp hlimit).1
    exact beq_iff_eq.mp hstate
  · exact (List.length_map _).symm
  · obtain ⟨process, hp, hmake⟩ := hall summary hsummary
    exact ⟨process, hp, makeSummary_ended hmake⟩

section Verified

variable {result : MultiProcessRunResult}

/-- Summaries are counted as the processes of the table are. -/
theorem ShownBy.countP_eq (h : ShownBy s result) {f : ProcessRunSummary → Bool}
    {q : ProcessControlBlock → Bool}
    (hf : ∀ summary ∈ result.processes, ∀ process,
      s.runtime.table.processes.find? summary.pid = some process → f summary = q process) :
    result.processes.countP f = s.runtime.table.processes.keys.countP
      (fun pid => (s.runtime.table.processes.find? pid).any q) := by
  rw [← h.pids, List.countP_map]
  refine List.countP_congr fun summary hsummary => ?_
  obtain ⟨process, hp, -⟩ := h.processes summary hsummary
  rw [Function.comp_apply, hp, Option.any_some, hf summary hsummary process hp]

/-- The result counts the processes that have ended. -/
theorem ShownBy.terminated (h : ShownBy s result) :
    result.processes.countP ProcessRunSummary.terminated = s.runtime.table.processes.keys.countP
      (fun pid => (s.runtime.table.processes.find? pid).any isEnded) := by
  refine h.countP_eq fun summary hsummary process hp => ?_
  obtain ⟨process', hp', hterminated, -⟩ := h.processes summary hsummary
  obtain rfl := Option.some.inj (hp.symm.trans hp')
  exact hterminated

/-- The result counts the processes that have faulted. -/
theorem ShownBy.faulted (h : ShownBy s result) :
    result.processes.countP ProcessRunSummary.faulted = s.runtime.table.processes.keys.countP
      (fun pid => (s.runtime.table.processes.find? pid).any isFaulted) := by
  refine h.countP_eq fun summary hsummary process hp => ?_
  obtain ⟨process', hp', -, hfaulted, -⟩ := h.processes summary hsummary
  obtain rfl := Option.some.inj (hp.symm.trans hp')
  exact hfaulted

/-- A process of the table is shown under its PID. -/
theorem ShownBy.process_eq (h : ShownBy s result) {pid : ProcessId}
    (hmem : pid ∈ s.runtime.table.processes.keys) :
    ∃ summary ∈ result.processes, summary.pid = pid ∧ result.process pid = .ok summary := by
  rw [← h.pids] at hmem
  obtain ⟨shown, hshown, hpid⟩ := List.mem_map.mp hmem
  have hfound : (result.processes.find? fun summary => summary.pid == pid).isSome = true :=
    List.find?_isSome.mpr ⟨shown, hshown, beq_iff_eq.mpr hpid⟩
  obtain ⟨summary, hsummary⟩ := Option.isSome_iff_exists.mp hfound
  have hsame : (summary.pid == pid) = true :=
    List.find?_some (p := fun other : ProcessRunSummary => other.pid == pid) hsummary
  refine ⟨summary, List.mem_of_find?_eq_some hsummary, beq_iff_eq.mp hsame, ?_⟩
  rw [MultiProcessRunResult.process, hsummary]

/-- The verifier's condition on a host call is what a consistent run records of it. -/
theorem ShownBy.answered (h : ShownBy s result) {processIds : List ProcessId}
    (hids : ∀ pid, pid ∈ s.runtime.table.processes.keys → pid ∈ processIds)
    {record : ProcessSoftwareInterruptTraceRecord} (hcall : CallRecorded s record) :
    Answered result processIds record where
  known := hids _ hcall.known
  executed := h.execution_trace.symm ▸ hcall.executed
  ended hends := by
    obtain ⟨hhandoff, process, hp, hended, hcode⟩ := hcall.ended hends
    refine ⟨h.context_switches.symm ▸ hhandoff, ?_⟩
    obtain ⟨summary, hsummary, hpid, hfound⟩ := h.process_eq hcall.known
    obtain ⟨process', hp', -, -, hexit⟩ := h.processes summary hsummary
    rw [hpid, hp] at hp'
    obtain rfl := Option.some.inj hp'
    obtain ⟨hhas, heq⟩ := hexit hended
    exact ⟨summary, hfound, hhas, heq.trans hcode⟩

/-- The counts of a consistent state cause no violation. -/
theorem countViolations_eq_nil (h : ShownBy s result) (hcounted : Counted s)
    (hlimit : result.step_limit_reached = true → result.runtime_state = .Running)
    (processIds : List ProcessId) :
    countViolations result ⟨processIds, result.processes.countP ProcessRunSummary.terminated,
      result.processes.countP ProcessRunSummary.faulted, []⟩ = [] := by
  have hended := hcounted.ended
  have hfaulted := hcounted.faulted
  -- Every process that has faulted has ended, and every process that has ended is one of the table.
  have hle : s.runtime.lifecycle.fault_count ≤ s.runtime.lifecycle.termination_count := by
    rw [← hended, ← hfaulted]
    refine List.countP_mono_left fun pid _ hany => ?_
    rw [Option.any_eq_true] at hany ⊢
    obtain ⟨process, hp, hq⟩ := hany
    exact ⟨process, hp, (Bool.and_eq_true_iff.mp hq).1⟩
  have hsize : s.runtime.lifecycle.termination_count ≤ s.runtime.table.processes.keys.length :=
    hended ▸ List.countP_le_length
  simp only [countViolations, List.append_eq_nil_iff, violationIf_eq_nil, not_not, h.terminated,
    h.faulted, hended, hfaulted, h.termination_count, h.fault_count, h.process_count,
    h.context_switch_count, h.preemption_count, true_and, not_or, not_lt, gt_iff_lt]
  exact ⟨⟨⟨hle, hsize⟩, hcounted.switched_le⟩, fun hboth => hboth.2 (hlimit hboth.1)⟩

/-- The records of a state in time cause no violation. -/
theorem timelineViolations_eq_nil (h : ShownBy s result) (hontime : OnTime s) :
    timelineViolations result
      (timeline s.executionTrace s.contextSwitches s.lifecycleSteps) = [] := by
  rw [hontime.timeline]
  simp only [timelineViolations, List.append_eq_nil_iff, violationIf_eq_nil, h.execution_trace,
    h.context_switches, h.runtime_state, h.lifecycle_steps, ne_eq, not_true_eq_false, or_self,
    not_false_eq_true, true_and]
  refine ⟨?_, ?_⟩
  · rintro ⟨hrunning, hsteps, hvacant⟩
    rw [if_neg hsteps] at hvacant
    exact hontime.running.mp hrunning hvacant
  · rintro ⟨hcompleted, hpid⟩
    split_ifs at hpid with hsteps
    · exact hpid rfl
    · have hrunning := hontime.running.mpr hpid
      rw [hcompleted] at hrunning
      cases hrunning

/-- A result that shows a consistent run has no violation. -/
theorem verify_of_consistent (h : ShownBy s result) (htraced : Traced images s)
    (hconsistent : Consistent s) : verify result = .ok ⟨[]⟩ := by
  have hne : ∀ summary ∈ result.processes, summary.pid ≠ 0 := by
    intro summary hsummary
    obtain ⟨process, hp, -⟩ := h.processes summary hsummary
    exact (htraced.invariant.entry hp).pid_ne
  have hscan := scanProcesses_eq (h.pids ▸ nodup_keys _) hne
  set processIds := (result.processes.map ProcessRunSummary.pid).reverse with hprocessIds
  have hids : ∀ pid, pid ∈ s.runtime.table.processes.keys → pid ∈ processIds := by
    intro pid hpid
    rw [hprocessIds, List.mem_reverse, h.pids]
    exact hpid
  -- One scan after the other, none of which finds a violation.
  have hexecutions := scanExecutions_eq processIds hconsistent.executions
    (fun record hrecord => hids _ (hconsistent.executed record hrecord))
    (unbroken_of_traced htraced hconsistent.executed)
  have hcalls := scanSoftwareInterrupts_eq (h.lifecycle_steps ▸ hconsistent.softwareInterrupts)
    fun record hrecord => h.answered hids (hconsistent.calls record hrecord)
  have hswitches := scanSwitches_eq processIds hconsistent.contextSwitches fun record hrecord =>
    { hconsistent.switches record hrecord with
      source := hids _ (hconsistent.switches record hrecord).source
      target := fun hto => hids _ ((hconsistent.switches record hrecord).target hto) }
  have hcounts := countViolations_eq_nil h hconsistent.counted
    (fun hlimit => h.runtime_state.trans (h.step_limit_reached hlimit)) processIds
  have htimeline := timelineViolations_eq_nil h hconsistent.onTime
  have hlength : ¬ result.process_count ≠ result.processes.length := by
    rw [not_not, h.process_count, ← h.pids, List.length_map]
  have hpreempted := hconsistent.counted.preempted.trans h.context_switch_count.symm
  have hended := hconsistent.counted.handedOff.trans h.termination_count.symm
  simp only [verify, hscan, h.execution_trace, h.software_interrupts, h.context_switches,
    h.lifecycle_steps, hexecutions, hcalls, hswitches, ok_bind]
  rw [violationIf_eq_nil.mpr hlength, hcounts, violationIf_eq_nil.mpr (not_not.mpr hpreempted),
    violationIf_eq_nil.mpr (not_not.mpr hended), htimeline, hconsistent.onTime.timeline]
  rfl

end Verified

end MultiProcessRunner

/-- A run that returns a result satisfies its verifier. -/
theorem runner_satisfies_verifier [LongDouble] {host : H} {images : List ProcessImage}
    {options : MultiProcessRunOptions H} {result : MultiProcessRunResult}
    (hadmissible : Admissible options.software_interrupt_handler)
    (hrun : MultiProcessRunner.runImages host images options = .ok result) :
    MultiProcessInvariantVerifier.verify result = .ok ⟨[]⟩ := by
  simp only [MultiProcessRunner.runImages, bind_eq_ok] at hrun
  obtain ⟨booted, hboot, s, hloop, hfinish⟩ := hrun
  obtain ⟨htraced, hconsistent⟩ :=
    MultiProcessRunner.consistent_of_runLoop hadmissible hboot hloop
  exact MultiProcessRunner.verify_of_consistent (MultiProcessRunner.finish_eq_ok hfinish) htraced
    hconsistent

/-- Two processes, one of which makes a call and ends, while the other faults. -/
theorem runner_satisfies_verifier_two :
    letI : LongDouble := LongDouble.x87
    ∃ result, MultiProcessRunner.runImages freshFilesystem [syscallImage, trapImage] syscallOptions
        = .ok result
      ∧ result.software_interrupts.length = 1 ∧ result.context_switches.length = 2
      ∧ MultiProcessInvariantVerifier.verify result = .ok ⟨[]⟩ := by
  have hruns : (@MultiProcessRunner.runImages _ LongDouble.x87 freshFilesystem
      [syscallImage, trapImage] syscallOptions).toOption.map (fun result =>
        (result.software_interrupts.length, result.context_switches.length)) = some (1, 2) := by
    decide +kernel
  cases hrun : @MultiProcessRunner.runImages _ LongDouble.x87 freshFilesystem
      [syscallImage, trapImage] syscallOptions with
  | error e =>
    rw [hrun] at hruns
    cases hruns
  | ok result =>
    rw [hrun] at hruns
    obtain ⟨hcalls, hswitches⟩ := Prod.ext_iff.mp (Option.some.inj hruns)
    exact ⟨result, rfl, hcalls, hswitches,
      @runner_satisfies_verifier _ LongDouble.x87 _ _ _ _ (.dispatcher _) hrun⟩

end ZeroCpu.Sys
