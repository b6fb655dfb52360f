import ZeroCpu.Core.Observations
import ZeroCpu.Kernel.LiveState

/-!
# The accounts of a lifecycle step

Reference: `src/kernel/TimerPreemptiveScheduler.cpp`, `src/kernel/ProcessLifecycleManager.cpp`.

A step counts at most one preemption or one termination. A preemption leaves every process that has
terminated as it is, a termination adds the one that was running, with the exit code that the CPU was
left with.
-/

namespace ZeroCpu.Kernel

open Library

variable {W H : Type}

/-! ## Host calls -/

/-- What host calls leave on a CPU survives a switch: the record as it is, and that nobody has asked to
exit. -/
structure SameCalls (cpu cpu' : CPU W) : Prop where
  observation : cpu'.core.softwareInterruptObservation = cpu.core.softwareInterruptObservation
  exitRequest : cpu.core.processExitRequest = none → cpu'.core.processExitRequest = none

/-- Having the same calls is transitive. -/
theorem SameCalls.trans {cpu cpu' cpu'' : CPU W} (h : SameCalls cpu cpu') (h' : SameCalls cpu' cpu'') :
    SameCalls cpu cpu'' where
  observation := h'.observation.trans h.observation
  exitRequest hnone := h'.exitRequest (h.exitRequest hnone)

/-- Activating an address space makes no call. -/
theorem sameCalls_of_activate {space : ProcessAddressSpace} {cpu cpu' : CPU W} {u : Unit}
    (h : space.activate cpu = (.ok u, cpu')) : SameCalls cpu cpu' := by
  rw [ProcessAddressSpace.activate, Exec.staged_eq_ok, Exec.lift_bind_eq_ok] at h
  obtain ⟨_, -, h⟩ := h
  cases hprogram : space.executable with
  | none =>
    rw [hprogram] at h
    obtain rfl := Exec.modify_eq_ok.mp h
    exact ⟨rfl, fun hnone => hnone⟩
  | some program =>
    simp only [hprogram, CPU.loadBinaryProgram, bind_assoc, ↓Exec.get_bind_eq_ok,
      ↓Exec.modify_bind_eq_ok, ↓Exec.lift_bind_eq_ok] at h
    obtain ⟨image, -, h⟩ := h
    obtain rfl := Exec.modify_eq_ok.mp h
    exact ⟨rfl, fun _ => rfl⟩

/-- Restoring a context makes no call. -/
theorem sameCalls_of_restore {context : ProcessContext} {cpu cpu' : CPU W} {u : Unit}
    (h : restoreProcessContext context cpu = (.ok u, cpu')) : SameCalls cpu cpu' := by
  simp only [restoreProcessContext, ↓Exec.get_bind_eq_ok, ↓Exec.lift_bind_eq_ok] at h
  obtain ⟨_, -, _, -, h⟩ := h
  split_ifs at h
  · simp only [CPU.setUserCodeRange, CPU.setKernelStackPointer, bind_assoc, ↓Exec.get_bind_eq_ok,
      ↓Exec.lift_bind_eq_ok, ↓Exec.modify_bind_eq_ok, ↓Exec.require_bind_eq_ok, Exec.modify_eq_ok] at h
    obtain ⟨_, -, -, _, -, rfl⟩ := h
    exact ⟨rfl, fun hnone => hnone⟩
  · simp only [CPU.clearUserCodeRange, CPU.setKernelStackPointer, bind_assoc, ↓Exec.get_bind_eq_ok,
      ↓Exec.lift_bind_eq_ok, ↓Exec.modify_bind_eq_ok, ↓Exec.require_bind_eq_ok, Exec.modify_eq_ok] at h
    obtain ⟨-, _, -, rfl⟩ := h
    exact ⟨rfl, fun hnone => hnone⟩

/-- Resuming a process makes no call. -/
theorem sameCalls_of_resume {selected : ProcessControlBlock} {d d' : Dispatch W} {u : Unit}
    (h : resume selected d = (.ok u, d')) : SameCalls d.cpu d'.cpu := by
  simp only [resume, Exec.bind_eq_ok, Exec.zoom_eq_ok, Exec.get_apply, Exec.lift_eq_ok] at h
  obtain ⟨_, _, ⟨loaded, hload, rfl⟩, _, _, hget, _, _, ⟨-, rfl⟩, restored, hrestore, rfl⟩ := h
  obtain ⟨-, rfl⟩ := Prod.ext_iff.mp hget
  exact (sameCalls_of_activate hload).trans (sameCalls_of_restore hrestore)

/-- A context switch makes no call. -/
theorem sameCalls_of_dispatchNext {d d' : Dispatch W} {selected : ProcessId}
    (hinv : d.table.Invariant) (h : dispatchNext d = (.ok selected, d')) :
    SameCalls d.cpu d'.cpu := by
  obtain ⟨saved, s, process, hsaved, -, -, hresume⟩ := dispatchNext_eq_ok h
  have hcpu : saved.cpu = d.cpu := (saveRunning_spec hinv hsaved).1
  have hsame := sameCalls_of_resume hresume
  dsimp only at hsame
  rwa [hcpu] at hsame

/-! ## Terminated processes -/

/-- The processes that have terminated stay as they are; at most the process `ended` joins them. -/
structure EndsAtMost (table : ProcessTable) (ended : Option ProcessId) (table' : ProcessTable) :
    Prop where
  kept : ∀ pid process, table.processes.find? pid = some process → process.state = .Terminated →
    table'.processes.find? pid = some process
  fresh : ∀ pid process, table'.processes.find? pid = some process → process.state = .Terminated →
    table.processes.find? pid = some process ∨ ended = some pid

theorem EndsAtMost.refl (table : ProcessTable) : EndsAtMost table none table :=
  ⟨fun _ _ h _ => h, fun _ _ h _ => .inl h⟩

/-- What ended first is all that has ended when nothing else ends. -/
theorem EndsAtMost.trans {table table' table'' : ProcessTable} {ended : Option ProcessId}
    (h : EndsAtMost table ended table') (h' : EndsAtMost table' none table'') :
    EndsAtMost table ended table'' where
  kept pid process hp ht := h'.kept pid process (h.kept pid process hp ht) ht
  fresh pid process hp ht := by
    rcases h'.fresh pid process hp ht with hp' | hnone
    · exact h.fresh pid process hp' ht
    · cases hnone

/-- A switch ends no process. -/
theorem endsAtMost_dispatchNext {d d' : Dispatch W} {selected : ProcessId}
    (hinv : d.table.Invariant) (h : dispatchNext d = (.ok selected, d')) :
    EndsAtMost d.table none d'.table := by
  obtain ⟨hinv', hrunning, -, -, hfind⟩ := find?_of_dispatchNext hinv h
  obtain ⟨saved, s, process, hsaved, hschedule, hprocess, hresume⟩ := dispatchNext_eq_ok h
  obtain ⟨-, -, hinvSaved, hfindSaved⟩ := saveRunning_spec hinv hsaved
  obtain ⟨candidate, hcandidate, hready⟩ := (scheduleNext_spec hinvSaved hschedule).1
  -- Only a process that can run is selected.
  have hselected : ∀ old, d.table.processes.find? selected = some old → old.state ≠ .Terminated := by
    intro old hold ht
    rw [hfindSaved, hold] at hcandidate
    obtain rfl := Option.some.inj hcandidate
    rw [savedFrom, if_neg (by rw [ht]; rintro ⟨⟩), ht] at hready
    rcases hready with hready | hready <;> cases hready
  have hsame : ∀ pid old, d.table.processes.find? pid = some old → old.state = .Terminated →
      (handedOver selected pid ∘ savedFrom d.cpu pid) old = old := by
    intro pid old hold ht
    have hidle : old.state ≠ .Running := by rw [ht]; rintro ⟨⟩
    have hne : pid ≠ selected := by
      rintro rfl
      exact hselected old hold ht
    rw [Function.comp_apply, savedFrom, if_neg hidle, handedOver, if_neg hne, if_neg hidle]
  refine ⟨fun pid old hold ht => ?_, fun pid new hnew ht => .inl ?_⟩
  · rw [hfind, hold, Option.map_some, hsame pid old hold ht]
  · rw [hfind] at hnew
    obtain ⟨old, hold, rfl⟩ := Option.map_eq_some_iff.mp hnew
    have hold' : old.state = .Terminated := by
      by_contra hlive
      -- Neither saving nor handing over terminates a process.
      rw [Function.comp_apply, handedOver] at ht
      split_ifs at ht
      rw [savedFrom] at ht
      split_ifs at ht
      · exact hlive ht
      · exact hlive ht
    rw [hsame pid old hold hold']
    exact hold

namespace ProcessLifecycleManager

open TimerPreemptiveScheduler

/-- Ending the running process leaves the processes that have terminated as they are. -/
theorem endsAtMost_terminateRunning {rt : Runtime H} {staged : ProcessTable}
    {context : ProcessContext} (hinv : rt.table.Invariant) (hne : rt.table.running_pid ≠ 0)
    (h : terminateRunning rt rt.table.running_pid context = .ok staged) :
    EndsAtMost rt.table (some rt.table.running_pid) staged := by
  obtain ⟨_, _, _, _, -, -, -, -, hfind⟩ := terminateRunning_spec hinv hne h
  obtain ⟨running, hrunning, hstate⟩ := (hinv.running rt.table.running_pid).mp ⟨rfl, hne⟩
  refine ⟨fun pid process hp ht => ?_, fun pid process hp _ => ?_⟩
  · have hpid : pid ≠ rt.table.running_pid := by
      rintro rfl
      rw [hrunning] at hp
      obtain rfl := Option.some.inj hp
      rw [hstate] at ht
      cases ht
    rw [hfind, if_neg hpid]
    exact hp
  · rw [hfind] at hp
    split_ifs at hp with hpid
    · exact .inr (congrArg some hpid.symm)
    · exact .inl hp

/-! ## Steps -/

/-- The running process has ended the way the CPU has stopped. -/
structure EndedOn (cpu : CPU (Board H)) (normalExitCode : Word) (faulted : Bool)
    (process : ProcessControlBlock) : Prop where
  terminated : process.state = .Terminated
  hasExitCode : process.hasExitCode = true
  kind : process.terminationKind = .CpuFault ↔ faulted = true
  error : faulted = cpu.core.state.hasError
  exitCode : faulted = false → process.exitCode = cpu.core.processExitRequest.getD normalExitCode

/-- The trace and the record of a host call are those of the CPU that has moved on. -/
structure SameRecords (moved cpu : CPU (Board H)) : Prop where
  trace : cpu.trace = moved.trace
  observation : cpu.core.softwareInterruptObservation = moved.core.softwareInterruptObservation

/-- What a step from `rt` to `after` counts, once the CPU has moved on to `moved`. -/
structure Accounts (rt : Runtime H) (moved : CPU (Board H)) (preempted : Bool)
    (result : ProcessLifecycleStepResult) (after : Runtime H) : Prop where
  preemption_count : after.preemptive.preemption_count
    = rt.preemptive.preemption_count + preempted.toNat
  context_switch_count : after.preemptive.context_switch_count
    = rt.preemptive.context_switch_count
      + if preempted = true ∧ rt.table.running_pid ≠ after.table.running_pid then 1 else 0
  termination_count : after.lifecycle.termination_count
    = rt.lifecycle.termination_count + result.process_terminated.toNat
  fault_count : after.lifecycle.fault_count
    = rt.lifecycle.fault_count + result.process_faulted.toNat
  exclusive : ¬ (preempted = true ∧ result.process_terminated = true)
  faulted : result.process_faulted = true → result.process_terminated = true
  stays : preempted = false → result.process_terminated = false →
    after.table.running_pid = rt.table.running_pid
  leaves : result.process_terminated = true → after.table.running_pid ≠ rt.table.running_pid
  vacant : after.table.running_pid = 0 → result.process_terminated = true
  state : result.state = .Running ↔ after.table.running_pid ≠ 0
  table : EndsAtMost rt.table
    (if result.process_terminated then some rt.table.running_pid else none) after.table
  ended : result.process_terminated = true → ∃ process,
    after.table.processes.find? rt.table.running_pid = some process
      ∧ EndedOn moved rt.lifecycle.normal_exit_code result.process_faulted process

/-- The accounts of a preemption. -/
theorem accounts_of_preempts {rt rt' : Runtime H} {selected : ProcessId}
    (hinv : rt.table.Invariant) (hrunning : rt.lifecycle.state = .Running)
    (h : Preempts rt selected rt') :
    Accounts rt rt.cpu true ⟨rt'.lifecycle.state, false, false, 0, rt'.table.running_pid⟩ rt' := by
  obtain ⟨d, request, controller, hd, -, rfl⟩ := h.switch
  obtain ⟨hinv', hselected, ⟨process, hprocess, -⟩, -⟩ :=
    find?_of_dispatchNext (d := ⟨rt.cpu, rt.table, rt.scheduler⟩) hinv hd
  have hne : d.table.running_pid ≠ 0 := hselected ▸ (hinv'.entry hprocess).pid_ne
  refine {
    preemption_count := rfl
    context_switch_count := ?_
    termination_count := rfl
    fault_count := rfl
    exclusive := fun h => nomatch h.2
    faulted := nofun
    stays := nofun
    leaves := nofun
    vacant := fun hzero => absurd hzero hne
    state := ⟨fun _ => hne, fun _ => hrunning⟩
    table := endsAtMost_dispatchNext (d := ⟨rt.cpu, rt.table, rt.scheduler⟩) hinv hd
    ended := nofun }
  show rt.preemptive.context_switch_count + (if selected ≠ rt.table.running_pid then 1 else 0) = _
    + if true = true ∧ rt.table.running_pid ≠ d.table.running_pid then 1 else 0
  rw [hselected]
  simp only [true_and, ne_comm]

/-- The entry of the process that `terminateRunning` has ended. -/
theorem endedOn_of_terminateRunning {rt : Runtime H} {staged : ProcessTable}
    {context : ProcessContext} (hinv : rt.table.Invariant) (hne : rt.table.running_pid ≠ 0)
    (h : terminateRunning rt rt.table.running_pid context = .ok staged) :
    ∃ process, staged.processes.find? rt.table.running_pid = some process
      ∧ EndedOn rt.cpu rt.lifecycle.normal_exit_code rt.cpu.core.state.hasError process := by
  obtain ⟨old, exitCode, kind, message, -, hends, -, -, hfind⟩ := terminateRunning_spec hinv hne h
  refine ⟨_, (hfind _).trans (if_pos rfl), rfl, rfl, ?_, rfl, fun hno => (hends.normal hno).1⟩
  show kind = .CpuFault ↔ _
  cases herror : rt.cpu.core.state.hasError with
  | true => exact ⟨fun _ => rfl, fun _ => (hends.fault herror).2.1⟩
  | false =>
    rw [(hends.normal herror).2.1]
    exact ⟨nofun, nofun⟩

/-- The accounts of a process that ends. -/
theorem accounts_of_terminates {rt rt' : Runtime H} {result : ProcessLifecycleStepResult}
    (hinv : rt.table.Invariant) (hne : rt.table.running_pid ≠ 0) (h : Terminates rt result rt') :
    Accounts rt rt.cpu false result rt' := by
  have hfaults : ∀ state, (counted rt state).fault_count
      = rt.lifecycle.fault_count + rt.cpu.core.state.hasError.toNat := by
    intro state
    rw [counted]
    cases rt.cpu.core.state.hasError <;> rfl
  cases h with
  | @last staged captured terminated alone =>
    obtain ⟨-, -, -, -, -, -, -, hnone, -⟩ := terminateRunning_spec hinv hne terminated
    have hvacant : staged.running_pid = 0 := hnone
    exact {
      preemption_count := rfl
      context_switch_count := rfl
      termination_count := rfl
      fault_count := hfaults _
      exclusive := fun h => nomatch h.1
      faulted := fun _ => rfl
      stays := nofun
      leaves := fun _ heq => hne (heq.symm.trans hvacant)
      vacant := fun _ => rfl
      state := ⟨fun hr => absurd hr (classifyWithoutRunning_ne _), fun hr => absurd hvacant hr⟩
      table := endsAtMost_terminateRunning hinv hne terminated
      ended := fun _ => endedOn_of_terminateRunning hinv hne terminated }
  | @switches staged next d captured terminated ready dispatched ne =>
    obtain ⟨-, -, -, -, -, -, hstaged, hnone, hfind⟩ := terminateRunning_spec hinv hne terminated
    obtain ⟨process, hprocess, hended⟩ := endedOn_of_terminateRunning hinv hne terminated
    have hkept := endsAtMost_dispatchNext (d := ⟨rt.cpu, staged, rt.scheduler⟩) hstaged dispatched
    have hprocess' := hkept.kept _ process hprocess hended.terminated
    obtain ⟨hinv', hselected, -⟩ :=
      find?_of_dispatchNext (d := ⟨rt.cpu, staged, rt.scheduler⟩) hstaged dispatched
    have hrunning : d.table.running_pid ≠ 0 := hselected ▸ ne
    exact {
      preemption_count := rfl
      context_switch_count := rfl
      termination_count := rfl
      fault_count := hfaults _
      exclusive := fun h => nomatch h.1
      faulted := fun _ => rfl
      stays := nofun
      leaves := fun _ heq => by
        -- The process that runs is not the one that has ended.
        obtain ⟨running, hfound, hstate⟩ := (hinv'.running rt.table.running_pid).mp ⟨heq, hne⟩
        rw [hprocess'] at hfound
        obtain rfl := Option.some.inj hfound
        rw [hended.terminated] at hstate
        cases hstate
      vacant := fun hzero => absurd hzero hrunning
      state := ⟨fun _ => hrunning, fun _ => rfl⟩
      table := (endsAtMost_terminateRunning hinv hne terminated).trans hkept
      ended := fun _ => ⟨process, hprocess', hended⟩ }

/-- A context switch records nothing. -/
theorem sameRecords_of_dispatchNext {d d' : Dispatch (Board H)} {selected : ProcessId}
    (hinv : d.table.Invariant) (h : dispatchNext d = (.ok selected, d')) :
    SameRecords d.cpu d'.cpu :=
  ⟨(find?_of_dispatchNext hinv h).2.2.2.1.trace, (sameCalls_of_dispatchNext hinv h).observation⟩

/-- A preemption records nothing. -/
theorem sameRecords_of_preempts {rt rt' : Runtime H} {selected : ProcessId}
    (hinv : rt.table.Invariant) (h : Preempts rt selected rt') : SameRecords rt.cpu rt'.cpu := by
  obtain ⟨d, request, controller, hd, -, rfl⟩ := h.switch
  have hsame := sameRecords_of_dispatchNext (d := ⟨rt.cpu, rt.table, rt.scheduler⟩) hinv hd
  exact ⟨hsame.trace, hsame.observation⟩

/-- Clearing an exit request records nothing. -/
theorem sameRecords_clearExit (stopped cpu : CPU (Board H)) :
    SameRecords cpu (clearExit stopped cpu) := by
  rw [clearExit]
  split_ifs <;> exact ⟨rfl, rfl⟩

/-- Ending a process records nothing. -/
theorem sameRecords_of_terminates {rt rt' : Runtime H} {result : ProcessLifecycleStepResult}
    (hinv : rt.table.Invariant) (hne : rt.table.running_pid ≠ 0) (h : Terminates rt result rt') :
    SameRecords rt.cpu rt'.cpu := by
  cases h with
  | last =>
    have hclear := sameRecords_clearExit rt.cpu rt.cpu
    exact ⟨hclear.trace, hclear.observation⟩
  | @switches staged next d captured terminated ready dispatched ne =>
    obtain ⟨-, -, -, -, -, -, hstaged, -, -⟩ := terminateRunning_spec hinv hne terminated
    have hsame := sameRecords_of_dispatchNext (d := ⟨rt.cpu, staged, rt.scheduler⟩) hstaged dispatched
    have hclear := sameRecords_clearExit rt.cpu d.cpu
    exact ⟨hclear.trace.trans hsame.trace, hclear.observation.trans hsame.observation⟩

/-- Every step of the lifecycle keeps its accounts. -/
theorem accounts_of_step [LongDouble] {rt after : Runtime H} {result : ProcessLifecycleStepResult}
    (hinv : rt.table.Invariant) (hne : rt.table.running_pid ≠ 0)
    (hrunning : rt.lifecycle.state = .Running) (h : LifecycleStep rt result after) :
    ∃ moved preempted, (Due rt ∧ moved = rt.cpu ∨ ¬ Due rt ∧ moved = rt.cpu.step)
      ∧ (¬ Due rt → Stopped moved → result.process_terminated = true)
      ∧ SameRecords moved after.cpu ∧ Accounts rt moved preempted result after := by
  have hinv' : (stepped rt).table.Invariant := hinv
  have hne' : (stepped rt).table.running_pid ≠ 0 := hne
  -- The accounts move at most once a step: a preemption before or after the instruction, or the end
  -- of the process.
  cases h with
  | early preempts =>
    exact ⟨rt.cpu, true, .inl ⟨preempts.due, rfl⟩, fun hquiet => absurd preempts.due hquiet,
      sameRecords_of_preempts hinv preempts, accounts_of_preempts hinv hrunning preempts⟩
  | late quiet goesOn preempts =>
    have haccounts := accounts_of_preempts hinv' hrunning preempts
    exact ⟨rt.cpu.step, true, .inr ⟨quiet, rfl⟩, fun _ hstopped => absurd hstopped goesOn,
      sameRecords_of_preempts hinv' preempts, { haccounts with }⟩
  | plain quiet goesOn quiet' =>
    refine ⟨rt.cpu.step, false, .inr ⟨quiet, rfl⟩, fun _ hstopped => absurd hstopped goesOn,
      ⟨rfl, rfl⟩, ?_⟩
    exact {
      preemption_count := rfl
      context_switch_count := rfl
      termination_count := rfl
      fault_count := rfl
      exclusive := fun h => nomatch h.1
      faulted := nofun
      stays := fun _ _ => rfl
      leaves := nofun
      vacant := fun hzero => absurd hzero hne
      state := ⟨fun _ => hne, fun _ => hrunning⟩
      table := .refl rt.table
      ended := nofun }
  | terminates quiet stopped terminates =>
    have haccounts := accounts_of_terminates hinv' hne' terminates
    have hterminated : result.process_terminated = true := by
      cases terminates <;> rfl
    exact ⟨rt.cpu.step, false, .inr ⟨quiet, rfl⟩, fun _ _ => hterminated,
      sameRecords_of_terminates hinv' hne' terminates, { haccounts with }⟩

end ProcessLifecycleManager

end ZeroCpu.Kernel
