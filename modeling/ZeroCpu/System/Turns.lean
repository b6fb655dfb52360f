import ZeroCpu.Kernel.Progress
import ZeroCpu.System.Costs

/-!
# Every process has its turn

Reference: `src/kernel/RoundRobinScheduler.cpp`, `src/kernel/TimerPreemptiveScheduler.cpp`,
`src/system/MultiProcessRunner.cpp`, `runImages`.

The timer ends a turn after at most a quantum of instructions, the round that completes a process ends
its turn, and every end of a turn brings a waiting process closer to the CPU. The rounds that a process
may have to wait go down with every round, so no process starves.
-/

namespace ZeroCpu.Sys

open Library Kernel ProcessLifecycleManager TimerPreemptiveScheduler
open RoundRobinScheduler (candidates candidates_spec cursor?_of_selected Selects)

variable {W H : Type}

/-! ## Turns of the scheduler -/

/-- Resuming a process leaves the scheduler alone. -/
theorem scheduler_of_resume {selected : ProcessControlBlock} {d d' : Dispatch W} {u : Unit}
    (h : resume selected d = (.ok u, d')) : d'.scheduler = d.scheduler := by
  rw [resume, Exec.bind_eq_ok] at h
  obtain ⟨_, _, hactivate, h⟩ := h
  obtain ⟨cpu, -, rfl⟩ := Exec.zoom_eq_ok.mp hactivate
  rw [Exec.get_bind_eq_ok, Exec.lift_bind_eq_ok] at h
  obtain ⟨_, -, h⟩ := h
  obtain ⟨cpu', -, rfl⟩ := Exec.zoom_eq_ok.mp h
  rfl

/-- A decision selects, and the cursor moves to the selected process. -/
theorem selects_of_scheduleNext {table : ProcessTable} {scheduler : RoundRobinScheduler}
    {selected : ProcessId} {s : ProcessTable × RoundRobinScheduler} (hinv : table.Invariant)
    (h : RoundRobinScheduler.scheduleNext (table, scheduler) = (.ok selected, s)) :
    Selects table scheduler selected ∧ s.2 = ⟨true, selected⟩ := by
  cases hrotate : Cyclic.rotateAfter (candidates table) (scheduler.cursor? table) with
  | nil =>
    have hperm := Cyclic.rotateAfter_perm (candidates table) (scheduler.cursor? table)
    rw [hrotate] at hperm
    rw [RoundRobinScheduler.scheduleNext_error hperm.symm.eq_nil] at h
    cases (Prod.ext_iff.mp h).1
  | cons first rest =>
    obtain ⟨table', hschedule, -⟩ := RoundRobinScheduler.scheduleNext_eq hinv hrotate
    rw [hschedule] at h
    obtain ⟨hfirst, rfl⟩ := Prod.ext_iff.mp h
    obtain rfl : first = selected := Except.ok.inj hfirst
    exact ⟨⟨rest, hrotate⟩, rfl⟩

/-- A switch selects the first process after the last selection. -/
theorem selects_of_dispatchNext {d d' : Dispatch W} {selected : ProcessId} (hinv : d.table.Invariant)
    (h : dispatchNext d = (.ok selected, d')) :
    Selects d.table d.scheduler selected ∧ d'.scheduler = ⟨true, selected⟩ := by
  obtain ⟨saved, s, process, hsaved, hschedule, hprocess, hresume⟩ := dispatchNext_eq_ok h
  obtain ⟨-, -, hinv', -⟩ := saveRunning_spec hinv hsaved
  obtain ⟨hselects, hscheduler⟩ := selects_of_scheduleNext hinv' hschedule
  exact ⟨(selects_saved hinv hsaved selected).mp hselects,
    (scheduler_of_resume hresume).trans hscheduler⟩

/-- A switch changes nothing about who is runnable. -/
theorem candidates_of_dispatchNext {d d' : Dispatch W} {selected : ProcessId}
    (hinv : d.table.Invariant) (h : dispatchNext d = (.ok selected, d')) :
    candidates d'.table = candidates d.table := by
  obtain ⟨hinv', -, -, -, hfind⟩ := find?_of_dispatchNext hinv h
  have hselected := (selects_of_dispatchNext hinv h).1.runnable hinv
  have hspec := candidates_spec hinv
  have hspec' := candidates_spec hinv'
  refine hspec'.1.eq_of_mem_iff hspec.1 fun pid => (hspec'.2 pid).trans (Iff.trans ?_ (hspec.2 pid).symm)
  refine ⟨?_, runnable_of_dispatchNext hinv h⟩
  rintro ⟨process', hp', hstate'⟩
  rw [hfind] at hp'
  obtain ⟨process, hp, rfl⟩ := Option.map_eq_some_iff.mp hp'
  by_cases hpid : pid = selected
  · rwa [hpid]
  · refine ⟨process, hp, ?_⟩
    rw [Function.comp_apply, handedOver, if_neg hpid, savedFrom_state] at hstate'
    split_ifs at hstate' with hrunning
    · exact .inr hrunning
    · rwa [savedFrom_state] at hstate'

/-- The processes that come before `pid` when the one under `last` gives up the CPU. -/
def ahead (table : ProcessTable) (last pid : ProcessId) : ℕ :=
  Cyclic.waiting (candidates table) (some last) pid

/-- A switch is to a runnable process, or brings it closer. -/
theorem ahead_of_dispatchNext {d d' : Dispatch W} {selected last pid : ProcessId}
    (hinv : d.table.Invariant) (hlast : d.scheduler = ⟨true, last⟩) (hpid : d.table.Runnable pid)
    (h : dispatchNext d = (.ok selected, d')) :
    pid = selected ∨ ahead d'.table selected pid < ahead d.table last pid := by
  obtain ⟨hselects, -⟩ := selects_of_dispatchNext hinv h
  have hselected := hselects.runnable hinv
  obtain ⟨rest, hrotate⟩ := hselects
  have hcursor : d.scheduler.cursor? d.table = some last := by
    rw [cursor?_of_selected (by rw [hlast]), hlast]
  rw [hcursor] at hrotate
  have hspec := candidates_spec hinv
  by_cases heq : pid = selected
  · exact .inl heq
  · refine .inr ?_
    have hbetween := Cyclic.between_of_rotateAfter hspec.1 hrotate ((hspec.2 pid).mpr hpid) heq
    rw [ahead, candidates_of_dispatchNext hinv h]
    exact Cyclic.waiting_lt hbetween ((hspec.2 selected).mpr hselected)

/-- The end of a process brings nobody further from the CPU. -/
theorem ahead_terminateRunning {rt : Runtime H} {staged : ProcessTable} {context : ProcessContext}
    (hinv : rt.table.Invariant) (hne : rt.table.running_pid ≠ 0)
    (h : terminateRunning rt rt.table.running_pid context = .ok staged) (last pid : ProcessId) :
    ahead staged last pid ≤ ahead rt.table last pid := by
  obtain ⟨_, _, _, _, -, -, hstaged, -, hfind⟩ := terminateRunning_spec hinv hne h
  have hspec := candidates_spec hinv
  have hspec' := candidates_spec hstaged
  have hsubset : candidates staged ⊆ candidates rt.table := by
    intro other hother
    obtain ⟨process, hp, hstate⟩ := (hspec'.2 other).mp hother
    rw [hfind] at hp
    split_ifs at hp with hrunning
    · obtain rfl := Option.some.inj hp
      rcases hstate with hstate | hstate <;> cases hstate
    · exact (hspec.2 other).mpr ⟨process, hp, hstate⟩
  have hsub : (candidates staged).Sublist (candidates rt.table) :=
    List.sublist_of_subperm_of_pairwise
      (List.subperm_of_subset (hspec'.1.imp ne_of_lt) hsubset) hspec'.1 hspec.1
  exact hsub.countP_le

/-- A step has a waiting process selected, brings it closer to the CPU, or decides nothing. -/
theorem waiting_of_step [LongDouble] {rt after : Runtime H} {result : ProcessLifecycleStepResult}
    {pid : ProcessId} (hinv : rt.table.Invariant) (hne : rt.table.running_pid ≠ 0)
    (hscheduler : rt.scheduler = ⟨true, rt.table.running_pid⟩) (hpid : rt.table.Runnable pid)
    (hwaits : pid ≠ rt.table.running_pid) (hstep : LifecycleStep rt result after) :
    after.table.Runnable pid
      ∧ (pid = after.table.running_pid
        ∨ ahead after.table after.table.running_pid pid < ahead rt.table rt.table.running_pid pid
        ∨ after.table = rt.table ∧ after.preemptive = rt.preemptive
          ∧ after.lifecycle = rt.lifecycle) := by
  have hswitch : ∀ {d d' : Dispatch (Board H)} {selected : ProcessId}, d.table.Invariant →
      d.scheduler = rt.scheduler → d.table.Runnable pid →
      ahead d.table rt.table.running_pid pid ≤ ahead rt.table rt.table.running_pid pid →
      dispatchNext d = (.ok selected, d') → d'.table.Runnable pid ∧ (pid = d'.table.running_pid
        ∨ ahead d'.table d'.table.running_pid pid < ahead rt.table rt.table.running_pid pid) := by
    intro d d' selected hinv hsame hrunnable hle hd
    obtain ⟨-, hselected, -⟩ := find?_of_dispatchNext hinv hd
    have hselected : d'.table.running_pid = selected := hselected
    rw [hselected]
    exact ⟨runnable_of_dispatchNext hinv hd hrunnable,
      (ahead_of_dispatchNext hinv (hsame.trans hscheduler) hrunnable hd).imp id
        fun hlt => hlt.trans_le hle⟩
  have hinv' : (stepped rt).table.Invariant := hinv
  have hne' : (stepped rt).table.running_pid ≠ 0 := hne
  cases hstep with
  | early preempts =>
    obtain ⟨d, -, -, hd, -, rfl⟩ := preempts.switch
    obtain ⟨hrunnable, hcloser⟩ :=
      hswitch (d := ⟨rt.cpu, rt.table, rt.scheduler⟩) hinv rfl hpid le_rfl hd
    exact ⟨hrunnable, hcloser.imp id .inl⟩
  | late quiet goesOn preempts =>
    obtain ⟨d, -, -, hd, -, rfl⟩ := preempts.switch
    obtain ⟨hrunnable, hcloser⟩ :=
      hswitch (d := ⟨rt.cpu.step, rt.table, rt.scheduler⟩) hinv rfl hpid le_rfl hd
    exact ⟨hrunnable, hcloser.imp id .inl⟩
  | plain => exact ⟨hpid, .inr (.inr ⟨rfl, rfl, rfl⟩)⟩
  | terminates quiet stopped terminates =>
    obtain ⟨process, hp, hstate⟩ := hpid
    -- The process that ends is not the one that waits.
    have hstays : ∀ {staged : ProcessTable} {context : ProcessContext},
        terminateRunning (stepped rt) (stepped rt).table.running_pid context = .ok staged →
        staged.processes.find? pid = some process := by
      intro staged context hterminated
      obtain ⟨_, _, _, _, -, -, -, -, hfind⟩ := terminateRunning_spec hinv' hne' hterminated
      exact (hfind pid).trans ((if_neg hwaits).trans hp)
    cases terminates with
    | last captured terminated alone =>
      have hready : process.state = .Ready :=
        hstate.resolve_right fun hrunning => hwaits (hinv.running_pid_eq hp hrunning).symm
      have hmem := ProcessTable.mem_processIdsInState.mpr ⟨process, hstays terminated, hready⟩
      rw [alone] at hmem
      exact absurd hmem List.not_mem_nil
    | @switches staged next d captured terminated ready dispatched =>
      obtain ⟨-, -, -, -, -, -, hstaged, -, -⟩ := terminateRunning_spec hinv' hne' terminated
      obtain ⟨hrunnable, hcloser⟩ := hswitch (d := ⟨rt.cpu.step, staged, rt.scheduler⟩) hstaged rfl
        ⟨process, hstays terminated, hstate⟩ (ahead_terminateRunning hinv' hne' terminated _ _) dispatched
      exact ⟨hrunnable, hcloser.imp id .inl⟩

/-- While the lifecycle is running, the last selection is on the CPU. -/
theorem scheduler_of_step [LongDouble] {rt after : Runtime H} {result : ProcessLifecycleStepResult}
    (hinv : rt.table.Invariant) (hne : rt.table.running_pid ≠ 0)
    (hscheduler : rt.scheduler = ⟨true, rt.table.running_pid⟩) (hstep : LifecycleStep rt result after)
    (hrunning : result.state = .Running) : after.scheduler = ⟨true, after.table.running_pid⟩ := by
  have hswitch : ∀ {d d' : Dispatch (Board H)} {selected : ProcessId}, d.table.Invariant →
      dispatchNext d = (.ok selected, d') → d'.scheduler = ⟨true, d'.table.running_pid⟩ := by
    intro d d' selected hinv hd
    obtain ⟨-, hselected, -⟩ := find?_of_dispatchNext hinv hd
    have hselected : d'.table.running_pid = selected := hselected
    rw [hselected]
    exact (selects_of_dispatchNext hinv hd).2
  have hinv' : (stepped rt).table.Invariant := hinv
  have hne' : (stepped rt).table.running_pid ≠ 0 := hne
  cases hstep with
  | early preempts =>
    obtain ⟨d, -, -, hd, -, rfl⟩ := preempts.switch
    exact hswitch (d := ⟨rt.cpu, rt.table, rt.scheduler⟩) hinv hd
  | late quiet goesOn preempts =>
    obtain ⟨d, -, -, hd, -, rfl⟩ := preempts.switch
    exact hswitch (d := ⟨rt.cpu.step, rt.table, rt.scheduler⟩) hinv hd
  | plain => exact hscheduler
  | terminates quiet stopped terminates =>
    cases terminates with
    | last => exact absurd hrunning (classifyWithoutRunning_ne _)
    | switches captured terminated ready dispatched =>
      obtain ⟨-, -, -, -, -, -, hstaged, -, -⟩ := terminateRunning_spec hinv' hne' terminated
      exact hswitch (d := ⟨rt.cpu.step, _, rt.scheduler⟩) hstaged dispatched

/-! ## Turns of a run -/

namespace MultiProcessRunner

variable {host : H} {images : List ProcessImage} {options : MultiProcessRunOptions H}
  {base : Setup (Board H)} {s s' s'' : RunState H} {pid : ProcessId} {n p : ℕ}

/-- Everybody who is not on the CPU waits behind it, and a run that is over leaves nobody waiting. -/
structure InTurn (s : RunState H) : Prop where
  unblocked : Unblocked s.runtime.table
  scheduler : s.runtimeState = .Running →
    s.runtime.scheduler = ⟨true, s.runtime.table.running_pid⟩
  ended : s.runtimeState ≠ .Running → ∀ pid process,
    s.runtime.table.processes.find? pid = some process → process.state = .Terminated

/-- A run starts in turn. -/
theorem Booted.inTurn (h : Booted host images options s) : InTurn s := by
  obtain ⟨table, timer, selected, d, hcreated, -, hd, rfl⟩ := h.started
  obtain ⟨-, hselected, -⟩ := find?_of_dispatchNext
    (d := ⟨attachedCpu host options timer table, table, .initial⟩) hcreated.invariant hd
  have hselected : d.table.running_pid = selected := hselected
  refine ⟨unblocked_of_dispatchNext (d := ⟨attachedCpu host options timer table, table, .initial⟩)
    hcreated.invariant ?_ hd, fun _ => ?_, fun hstopped => absurd rfl hstopped⟩
  · intro pid process hp
    obtain ⟨image, -, rfl⟩ := hcreated.find pid process hp
    exact ProcessState.noConfusion
  · show d.scheduler = ⟨true, d.table.running_pid⟩
    rw [hselected]
    exact (selects_of_dispatchNext (d := ⟨attachedCpu host options timer table, table, .initial⟩)
      hcreated.invariant hd).2

theorem Prepared.scheduler {rt rt' : Runtime H} (h : Prepared rt rt') :
    rt'.scheduler = rt.scheduler := by
  cases h <;> rfl

theorem Prepared.preemptive {rt rt' : Runtime H} (h : Prepared rt rt') :
    rt'.preemptive = rt.preemptive := by
  cases h <;> rfl

/-- Every round keeps the turns. -/
theorem InTurn.iterate [LongDouble] (h : InTurn s) (hsteady : Steady images base s)
    (hrunning : s.runtimeState = .Running) (hiterate : MultiProcessRunner.iterate s = .ok s') :
    InTurn s' := by
  have hlifecycle := hsteady.state.trans hrunning
  obtain ⟨hne, rt, result, after, hprepared, hstep, rfl⟩ :=
    iterate_eq_ok hsteady.settled.invariant hlifecycle hiterate
  have hinv : rt.table.Invariant := hprepared.table ▸ hsteady.settled.invariant
  have hne : rt.table.running_pid ≠ 0 := hprepared.table ▸ hne
  have hstate : rt.lifecycle.state = .Running := hprepared.lifecycle ▸ hlifecycle
  have hopen : Unblocked rt.table := hprepared.table ▸ h.unblocked
  have hscheduler : rt.scheduler = ⟨true, rt.table.running_pid⟩ := by
    rw [hprepared.scheduler, hprepared.table]
    exact h.scheduler hrunning
  have hopen' := unblocked_of_step hinv hne hopen hstep
  have hscheduler' := scheduler_of_step hinv hne hscheduler hstep
  refine ⟨hopen', fun hgoes => hscheduler' hgoes, fun hstopped pid process hp => ?_⟩
  have hcompleted := (running_or_completed_of_step hstate hopen' hstep).resolve_left hstopped
  exact allTerminated_of_completed hinv hne hstate hstep hcompleted hp

/-- A run stays in turn. -/
theorem inTurn_of_runLoop [LongDouble] (hbase : Connected options base)
    (hadmissible : Admissible options.software_interrupt_handler) {rounds : ℕ}
    (hsteady : Steady images base s) (h : InTurn s) (hrun : runLoop rounds s = .ok s') : InTurn s' :=
  (runLoop_induct (P := fun t => Steady images base t ∧ InTurn t)
    (fun _ _ ht hgoes hstep =>
      ⟨ht.1.iterate hbase hadmissible hgoes hstep, ht.2.iterate ht.1 hgoes hstep⟩)
    ⟨hsteady, h⟩ hrun).2

/-! ## Service -/

/-- Since `s`, the process has executed an instruction or ended. -/
def Served (pid : ProcessId) (s s' : RunState H) : Prop :=
  (∃ record ∈ s'.executionTrace, s.lifecycleSteps < record.lifecycle_step ∧ record.pid = pid)
    ∨ ∃ process, s'.runtime.table.processes.find? pid = some process ∧ process.state = .Terminated

/-- A round is one lifecycle step. -/
theorem lifecycleSteps_of_iterate [LongDouble] (hsteady : Steady images base s)
    (hrunning : s.runtimeState = .Running) (hiterate : MultiProcessRunner.iterate s = .ok s') :
    s'.lifecycleSteps = s.lifecycleSteps + 1 := by
  obtain ⟨-, rt, result, after, -, -, rfl⟩ :=
    iterate_eq_ok hsteady.settled.invariant (hsteady.state.trans hrunning) hiterate
  rfl

/-- What has been recorded stays recorded. -/
theorem record_subset (s : RunState H) (before after : Runtime H) (pid : ProcessId)
    (result : ProcessLifecycleStepResult) :
    s.executionTrace ⊆ (record s before after pid result).executionTrace := by
  intro execution hmem
  simp only [record]
  split
  · split_ifs
    · exact List.mem_append_left _ hmem
    · exact hmem
  · exact hmem

/-- A process that has been served stays served. -/
theorem Served.iterate [LongDouble] (h : Served pid s s') (hsteady : Steady images base s')
    (hrunning : s'.runtimeState = .Running) (hiterate : MultiProcessRunner.iterate s' = .ok s'') :
    Served pid s s'' := by
  have hlifecycle := hsteady.state.trans hrunning
  obtain ⟨hne, rt, result, after, hprepared, hstep, rfl⟩ :=
    iterate_eq_ok hsteady.settled.invariant hlifecycle hiterate
  rcases h with ⟨execution, hmem, hlater⟩ | ⟨process, hp, hterminated⟩
  · exact .inl ⟨execution, record_subset _ _ _ _ _ hmem, hlater⟩
  · obtain ⟨_, _, -, -, -, haccounts⟩ := accounts_of_step
      (hprepared.table ▸ hsteady.settled.invariant) (hprepared.table ▸ hne)
      (hprepared.lifecycle ▸ hlifecycle) hstep
    exact .inr ⟨process, haccounts.table.kept pid process (hprepared.table ▸ hp) hterminated,
      hterminated⟩

/-- A process that was served stays served. -/
theorem Served.runLoop [LongDouble] (hbase : Connected options base)
    (hadmissible : Admissible options.software_interrupt_handler) {rounds : ℕ} (h : Served pid s s')
    (hsteady : Steady images base s') (hrun : MultiProcessRunner.runLoop rounds s' = .ok s'') :
    Served pid s s'' :=
  (runLoop_induct (P := fun t => Steady images base t ∧ Served pid s t)
    (fun _ _ ht hgoes hstep =>
      ⟨ht.1.iterate hbase hadmissible hgoes hstep, ht.2.iterate ht.1 hgoes hstep⟩)
    ⟨hsteady, h⟩ hrun).2

/-- The round of a process is recorded, unless it completes the process. -/
theorem Accounted.record_or_end [LongDouble] (h : Accounted images options base n p s)
    (hrunning : s.runtimeState = .Running) (hiterate : MultiProcessRunner.iterate s = .ok s') :
    (∃ event, s'.executionTrace
        = s.executionTrace ++ [⟨s.lifecycleSteps + 1, s.runtime.table.running_pid, event⟩])
      ∨ ∃ process, s'.runtime.table.processes.find? s.runtime.table.running_pid = some process
        ∧ process.state = .Terminated := by
  have hinv := h.steady.settled.invariant
  have hlifecycle := h.steady.state.trans hrunning
  obtain ⟨hne, rt, result, after, hprepared, hstep, rfl⟩ := iterate_eq_ok hinv hlifecycle hiterate
  cases hprepared with
  | running inside =>
    -- A request that is pending would have the process completed.
    have hquiet : ¬ Due s.runtime := by
      intro hdue
      have hatEnd := (h.tallied.at_end ((due_iff h.tallied.board).mp hdue).1).1
      exact Bool.noConfusion (Except.ok.inj (hatEnd.symm.trans inside))
    obtain ⟨hstopped, -⟩ | ⟨-, event, htrace, -⟩ := CPU.step_trace h.traced.recorded
      fun _ => (h.traced.goesOn hrunning).no_message
    · exact absurd hstopped (h.steady.going hne)
    obtain ⟨moved, _, hmoved, -, hrecords, -⟩ := accounts_of_step hinv hne hlifecycle hstep
    obtain ⟨-, rfl⟩ := hmoved.resolve_left fun hdue => hquiet hdue.1
    exact .inl ⟨event, record_executionTrace_grown (hrecords.trace.trans htrace)⟩
  | completed atEnd =>
    set rt : Runtime H := { discardCompletionTimerRequest s.runtime with
      cpu := haltCpu (discardCompletionTimerRequest s.runtime).cpu } with hrt
    have hstopped : Stopped rt.cpu.step := by
      rw [Stopped, CPU.step_of_stopped (.inl rfl)]
      exact .inl rfl
    have hquiet : ¬ Due rt := not_due_completed s.runtime
    have hinv' : rt.table.Invariant := hinv
    have hne' : rt.table.running_pid ≠ 0 := hne
    obtain ⟨moved, _, hmoved, hterminates, -, haccounts⟩ :=
      accounts_of_step hinv' hne' hlifecycle hstep
    obtain ⟨-, rfl⟩ := hmoved.resolve_left fun hdue => hquiet hdue.1
    obtain ⟨process, hp, hended⟩ := haccounts.ended (hterminates hquiet hstopped)
    exact .inr ⟨process, hp, hended.terminated⟩

/-- The rounds of a turn that are left: the instructions of the quantum, and a round in which the
process completes at the end of its code. -/
def turnLeft (options : MultiProcessRunOptions H) (n p : ℕ) : ℕ :=
  if p = 0 then options.quantum.toNat - n % options.quantum.toNat + 1 else 1

/-- A turn has something left. -/
theorem turnLeft_pos (options : MultiProcessRunOptions H) (n p : ℕ) : 0 < turnLeft options n p := by
  rw [turnLeft]
  split_ifs
  · exact Nat.succ_pos _
  · exact Nat.one_pos

/-- A turn lasts no longer than a quantum and one round. -/
theorem turnLeft_le (options : MultiProcessRunOptions H) (n p : ℕ) :
    turnLeft options n p ≤ options.quantum.toNat + 1 := by
  rw [turnLeft]
  split_ifs
  · exact Nat.succ_le_succ (Nat.sub_le _ _)
  · exact Nat.succ_le_succ (Nat.zero_le _)

/-- An instruction that ends no quantum leaves less of it. -/
theorem turnLeft_succ (hquantum : options.quantum ≠ 0) {p' : ℕ}
    (hrequests : (n + 1) / options.quantum.toNat = n / options.quantum.toNat + p') :
    turnLeft options (n + 1) p' + 1 ≤ turnLeft options n 0 := by
  have hpositive : 0 < options.quantum.toNat :=
    Nat.pos_of_ne_zero fun hzero => hquantum (BitVec.eq_of_toNat_eq hzero)
  have hlt := Nat.mod_lt n hpositive
  rw [turnLeft, turnLeft, if_pos rfl]
  split_ifs with hzero
  · have hlow := Nat.div_add_mod n options.quantum.toNat
    have hhigh := Nat.div_add_mod (n + 1) options.quantum.toNat
    have hlt' := Nat.mod_lt (n + 1) hpositive
    rw [hrequests, hzero, Nat.add_zero] at hhigh
    omega
  · omega

/-- What a process that waits may still have to wait. -/
def patience (options : MultiProcessRunOptions H) (n p : ℕ) (s : RunState H) (pid : ProcessId) : ℕ :=
  ahead s.runtime.table s.runtime.table.running_pid pid * (options.quantum.toNat + 1)
    + turnLeft options n p

/-- A round has a waiting process selected, or shortens its wait. -/
theorem patience_of_iterate [LongDouble] (hquantum : options.quantum ≠ 0)
    (h : Accounted images options base n p s) (hturn : InTurn s) {n' p' : ℕ} {preempted ended : Bool}
    (hrunning : s.runtimeState = .Running) (hiterate : MultiProcessRunner.iterate s = .ok s')
    (htallies : Tallies options n p s s' n' p' preempted ended)
    (hpid : s.runtime.table.Runnable pid) (hwaits : pid ≠ s.runtime.table.running_pid) :
    s'.runtime.table.Runnable pid ∧ (pid = s'.runtime.table.running_pid
      ∨ patience options n' p' s' pid + 1 ≤ patience options n p s pid) := by
  have hinv := h.steady.settled.invariant
  have hlifecycle := h.steady.state.trans hrunning
  have hround := h.record_or_end hrunning hiterate
  obtain ⟨hne, rt, result, after, hprepared, hstep, hs'⟩ := iterate_eq_ok hinv hlifecycle hiterate
  have htable := hprepared.table
  have hafter : s'.runtime.table = after.table := by
    rw [hs']
    rfl
  have hscheduler : rt.scheduler = ⟨true, rt.table.running_pid⟩ := by
    rw [hprepared.scheduler, htable]
    exact hturn.scheduler hrunning
  obtain ⟨hrunnable, hcase⟩ := waiting_of_step (htable ▸ hinv) (htable ▸ hne) hscheduler
    (htable ▸ hpid) (htable ▸ hwaits) hstep
  rw [← hafter] at hrunnable hcase
  refine ⟨hrunnable, ?_⟩
  rcases hcase with hselected | hcloser | ⟨hsame, hpreemptive, hends⟩
  · exact .inl hselected
  · -- Another turn begins, with fewer to come before the process.
    refine .inr ?_
    rw [htable] at hcloser
    have hturnLeft := turnLeft_le options n' p'
    have hpositive := turnLeft_pos options n p
    have hmul := Nat.mul_le_mul_right (options.quantum.toNat + 1) (Nat.succ_le_of_lt hcloser)
    rw [Nat.succ_mul] at hmul
    rw [patience, patience]
    omega
  · -- The turn goes on, for an instruction less.
    refine .inr ?_
    rw [htable] at hsame
    have hquiet : preempted.toNat = 0 ∧ ended.toNat = 0 := by
      have hpreemptions := htallies.preemption_count
      have hterminations := htallies.termination_count
      have hpreemptive' : s'.runtime.preemptive = s.runtime.preemptive := by
        rw [hs', ← hprepared.preemptive, ← hpreemptive]
        rfl
      have hends' : s'.runtime.lifecycle = s.runtime.lifecycle := by
        rw [hs', ← hprepared.lifecycle, ← hends]
        rfl
      rw [hpreemptive'] at hpreemptions
      rw [hends'] at hterminations
      omega
    have hnotEnded : ended = false := Bool.toNat_eq_zero.mp hquiet.2
    have hp : p = 0 := by
      by_contra hp
      have hcompletes := (htallies.completes (Nat.pos_of_ne_zero hp)).1
      exact Bool.noConfusion (hcompletes.symm.trans hnotEnded)
    obtain ⟨event, hgrown⟩ | ⟨process, hp', hterminated⟩ := hround
    · have hlength := htallies.goes_on hnotEnded
      rw [hgrown, List.length_append, List.length_singleton] at hlength
      obtain rfl : n' = n + 1 := by omega
      have hrequests := htallies.requests
      rw [hquiet.1, Nat.add_zero] at hrequests
      have hless := turnLeft_succ hquantum hrequests
      subst hp
      rw [patience, patience, hsame]
      omega
    · -- The process on the CPU has not ended.
      obtain ⟨running, hr, hstate⟩ := (hinv.running s.runtime.table.running_pid).mp ⟨rfl, hne⟩
      rw [hsame, hr] at hp'
      obtain rfl := Option.some.inj hp'
      exact ProcessState.noConfusion (hstate.symm.trans hterminated)

/-- A process is served once the rounds that it may have to wait are over. -/
theorem served_of_runLoop [LongDouble] (hbase : Connected options base)
    (hadmissible : Admissible options.software_interrupt_handler) (hquantum : options.quantum ≠ 0)
    {window : ℕ} (h : Accounted images options base n p s) (hturn : InTurn s)
    (hpid : s.runtime.table.Runnable pid) (hpositive : 0 < window)
    (hwindow : pid ≠ s.runtime.table.running_pid → patience options n p s pid + 1 ≤ window)
    (hrun : runLoop window s = .ok s') : Served pid s s' := by
  induction window generalizing s n p with
  | zero => exact absurd hpositive (lt_irrefl 0)
  | succ window ih =>
    have hrunning : s.runtimeState = .Running := by
      by_contra hstopped
      obtain ⟨process, hp, hstate⟩ := hpid
      rw [hturn.ended hstopped pid process hp] at hstate
      exact hstate.elim ProcessState.noConfusion ProcessState.noConfusion
    rw [runLoop, if_neg (not_not.mpr hrunning)] at hrun
    obtain ⟨next, hnext, hrest⟩ := bind_eq_ok.mp hrun
    obtain ⟨n', p', preempted, ended, hnextAccounted, htallies⟩ :=
      h.iterate hbase hadmissible hquantum hrunning hnext
    have hnextTurn := hturn.iterate h.steady hrunning hnext
    by_cases hon : pid = s.runtime.table.running_pid
    · -- It is the turn of the process, and what serves it stays.
      have hserved : Served pid s next := by
        rw [hon]
        obtain ⟨event, hgrown⟩ | hended := h.record_or_end hrunning hnext
        · refine .inl ⟨⟨s.lifecycleSteps + 1, s.runtime.table.running_pid, event⟩, ?_,
            Nat.lt_succ_self _, rfl⟩
          rw [hgrown]
          exact List.mem_append_right _ List.mem_cons_self
        · exact .inr hended
      exact hserved.runLoop hbase hadmissible hnextAccounted.steady hrest
    · obtain ⟨hrunnable, hcase⟩ :=
        patience_of_iterate hquantum h hturn hrunning hnext htallies hpid hon
      have hwait := hwindow hon
      have hpatience := turnLeft_pos options n p
      have hserved : Served pid next s' := by
        refine ih hnextAccounted hnextTurn hrunnable ?_ (fun hwaits => ?_) hrest
        · rw [patience] at hwait
          omega
        · have hless := hcase.resolve_left hwaits
          omega
      have hsteps := lifecycleSteps_of_iterate h.steady hrunning hnext
      rcases hserved with ⟨execution, hmem, hlater, hexecution⟩ | hended
      · exact .inl ⟨execution, hmem, by omega, hexecution⟩
      · exact .inr hended

/-- Among the processes ahead are at most those that are ready, without the process itself. -/
theorem ahead_lt_ready {table : ProcessTable} (hinv : table.Invariant)
    (hready : pid ∈ table.processIdsInState .Ready) :
    ahead table table.running_pid pid < (table.processIdsInState .Ready).length := by
  have hspec := candidates_spec hinv
  -- Whoever is ahead is runnable and not on the CPU, and therefore Ready.
  have hnodup : ((candidates table).filter
      fun other => Cyclic.Between (some table.running_pid) pid other).Nodup :=
    (hspec.1.imp ne_of_lt).filter _
  have hsubset : (candidates table).filter
      (fun other => Cyclic.Between (some table.running_pid) pid other)
        ⊆ (table.processIdsInState .Ready).erase pid := by
    intro other hother
    obtain ⟨hmem, hbetween⟩ := List.mem_filter.mp hother
    have hbetween := of_decide_eq_true hbetween
    obtain ⟨process, hp, hstate⟩ := (hspec.2 other).mp hmem
    have hother : other ≠ pid := by
      rintro rfl
      exact Cyclic.not_between_self hbetween
    have hwaits : other ≠ table.running_pid := by
      rintro rfl
      exact Cyclic.not_between_cursor hbetween
    refine (List.mem_erase_of_ne hother).mpr (ProcessTable.mem_processIdsInState.mpr ⟨process, hp, ?_⟩)
    exact hstate.resolve_right fun hrunning => hwaits (hinv.running_pid_eq hp hrunning).symm
  have hle := (List.subperm_of_subset hnodup hsubset).length_le
  rw [List.length_erase_of_mem hready] at hle
  have hpos := List.length_pos_of_mem hready
  rw [ahead, Cyclic.waiting, List.countP_eq_length_filter]
  omega

end MultiProcessRunner

/-! ## The theorem -/

open MultiProcessRunner

/-- No process starves. At every iteration of every run, each process executes an instruction or ends
within a quantum and one round for each process that is ready, and one round more. -/
theorem no_starvation [LongDouble] {host : H} {images : List ProcessImage}
    {options : MultiProcessRunOptions H}
    (hadmissible : Admissible options.software_interrupt_handler) {first s s' : RunState H}
    (hboot : boot host images options = .ok first) {rounds : ℕ} (hrun : runLoop rounds first = .ok s)
    {pid : ProcessId} {process : ProcessControlBlock}
    (hp : s.runtime.table.processes.find? pid = some process) {window : ℕ}
    (hwindow : (s.runtime.table.processIdsInState .Ready).length * (options.quantum.toNat + 1) < window)
    (hmore : runLoop window s = .ok s') : Served pid s s' := by
  have hbooted := boot_eq_ok hboot
  obtain ⟨hquantum, -, base, hbase, hfirst⟩ := hbooted.accounted hadmissible
  obtain ⟨n, p, haccounted, -, -⟩ := accounted_of_runLoop hbase hadmissible hquantum hfirst hrun
  have hsteady := haccounted.steady
  have hinv := hsteady.settled.invariant
  have hturn := inTurn_of_runLoop hbase hadmissible hfirst.steady hbooted.inTurn hrun
  have hpositive : 0 < window := Nat.zero_lt_of_lt hwindow
  have hserved : s.runtime.table.Runnable pid →
      (pid ≠ s.runtime.table.running_pid → patience options n p s pid + 1 ≤ window) →
      Served pid s s' :=
    fun hpid hwait =>
      served_of_runLoop hbase hadmissible hquantum haccounted hturn hpid hpositive hwait hmore
  -- A ready process waits for those ahead of it, each at most a quantum and the switch.
  cases hstate : process.state with
  | Ready =>
    have hready := ProcessTable.mem_processIdsInState.mpr ⟨process, hp, hstate⟩
    refine hserved ⟨process, hp, .inl hstate⟩ fun _ => ?_
    have hahead := ahead_lt_ready hinv hready
    have hmul := Nat.mul_le_mul_right (options.quantum.toNat + 1) (Nat.succ_le_of_lt hahead)
    have hturnLeft := turnLeft_le options n p
    rw [Nat.succ_mul] at hmul
    rw [patience]
    omega
  | Running =>
    refine hserved ⟨process, hp, .inr hstate⟩ fun hwaits => ?_
    exact absurd (hinv.running_pid_eq hp hstate).symm hwaits
  | Blocked => exact absurd hstate (hturn.unblocked pid process hp)
  | Terminated =>
    have hended : Served pid s s := .inr ⟨process, hp, hstate⟩
    exact hended.runLoop hbase hadmissible hsteady hmore

/-- With a quantum of one, the second of two processes is served within three rounds. -/
theorem no_starvation_two :
    letI : LongDouble := LongDouble.x87
    ∃ first s, boot () [nopsImage, nopsImage] { plainOptions none with quantum := 1 } = .ok first
      ∧ runLoop 3 first = .ok s ∧ Served 2 first s := by
  let _ : LongDouble := LongDouble.x87
  have hruns : ((boot () [nopsImage, nopsImage] { plainOptions none with quantum := 1 }).bind
      fun first => (runLoop 3 first).map fun _ => ((first.runtime.table.processes.find? 2).isSome,
        (first.runtime.table.processIdsInState .Ready).length)).toOption = some (true, 1) := by
    decide +kernel
  cases hboot : boot () [nopsImage, nopsImage] { plainOptions none with quantum := 1 } with
  | error e =>
    rw [hboot] at hruns
    cases hruns
  | ok first =>
    rw [hboot] at hruns
    change ((runLoop 3 first).map fun _ => ((first.runtime.table.processes.find? 2).isSome,
      (first.runtime.table.processIdsInState .Ready).length)).toOption = some (true, 1) at hruns
    cases hmore : runLoop 3 first with
    | error e =>
      rw [hmore] at hruns
      cases hruns
    | ok s =>
      rw [hmore] at hruns
      obtain ⟨hsome, hready⟩ := Prod.ext_iff.mp (Option.some.inj hruns)
      obtain ⟨process, hp⟩ := Option.isSome_iff_exists.mp hsome
      have hready : (first.runtime.table.processIdsInState .Ready).length = 1 := hready
      have hrun : runLoop 0 first = .ok first := rfl
      refine ⟨first, s, rfl, hmore, ?_⟩
      refine no_starvation .absent hboot hrun hp ?_ hmore
      rw [hready]
      decide

end ZeroCpu.Sys
