import Mathlib.Algebra.Order.BigOperators.Group.List
import ZeroCpu.System.Schedules

/-!
# What a run costs

Reference: `src/system/MultiProcessRunner.cpp`, `runImages`; `src/kernel/ProcessLifecycleManager.cpp`.

Where User processes reach no device, the rounds of a run are those of its processes: every round takes
one process one step on in its life, or completes a process at the end of its code. So wherever the
timer switches, a run needs as many rounds as its images need by themselves, and it completes exactly
when the step limit leaves it as many.
-/

namespace ZeroCpu.Sys

open Library Kernel ProcessLifecycleManager TimerPreemptiveScheduler

variable {H : Type}

/-! ## Rounds left -/

/-- The round that completes a process at the end of its code; a step that stops a process ends it in
its own round. -/
def lastRound (state : CPUState) : ℕ := if state.halted || state.hasError then 0 else 1

/-- The rounds that a process of the image needs from the state on. -/
def RoundsLeft [LongDouble] (image : ProcessImage) : CPUState → ℕ → Prop :=
  CostToGo (Over image) (ownStep image) lastRound

/-- A stopped CPU makes no further round. -/
theorem lastRound_of_stopped {state : CPUState} (h : state.halted = true ∨ state.hasError = true) :
    lastRound state = 0 := by
  rw [lastRound, if_pos]
  rwa [Bool.or_eq_true]

/-- A CPU that goes on makes one more. -/
theorem lastRound_of_going {state : CPUState} (h : ¬ (state.halted = true ∨ state.hasError = true)) :
    lastRound state = 1 := by
  rw [lastRound, if_neg]
  rwa [Bool.or_eq_true]

/-- A process that has not stopped needs a round. -/
theorem RoundsLeft.pos [LongDouble] {image : ProcessImage} {state : CPUState} {n : ℕ}
    (h : RoundsLeft image state n) (hgoes : ¬ (state.halted = true ∨ state.hasError = true)) : 0 < n := by
  by_cases hover : Over image state
  · rw [CostToGo.of_ended h hover, lastRound_of_going hgoes]
    exact Nat.one_pos
  · obtain ⟨m, rfl, -⟩ := CostToGo.of_not_ended h hover
    exact m.succ_pos

/-! ## Blocked processes -/

/-- No process is blocked. -/
def Unblocked (table : ProcessTable) : Prop :=
  ∀ pid process, table.processes.find? pid = some process → process.state ≠ .Blocked

/-- A dispatch blocks no process. -/
theorem unblocked_of_dispatchNext {W : Type} {d d' : Dispatch W} {selected : ProcessId}
    (hinv : d.table.Invariant) (h : Unblocked d.table) (hd : dispatchNext d = (.ok selected, d')) :
    Unblocked d'.table := by
  obtain ⟨-, -, -, -, hfind⟩ := find?_of_dispatchNext hinv hd
  intro pid process' hp
  rw [hfind] at hp
  obtain ⟨process, hprocess, rfl⟩ := Option.map_eq_some_iff.mp hp
  have hopen := h pid process hprocess
  have hsaved : (savedFrom d.cpu pid process).state = process.state := by
    rw [savedFrom]
    split_ifs <;> rfl
  rw [Function.comp_apply, handedOver]
  split_ifs
  · exact ProcessState.noConfusion
  · exact ProcessState.noConfusion
  · rwa [hsaved]

/-- Ending the running process blocks no process. -/
theorem unblocked_of_terminateRunning {rt : Runtime H} {staged : ProcessTable}
    {context : ProcessContext} (hinv : rt.table.Invariant) (hne : rt.table.running_pid ≠ 0)
    (h : Unblocked rt.table) (hend : terminateRunning rt rt.table.running_pid context = .ok staged) :
    Unblocked staged := by
  obtain ⟨_, _, _, _, -, -, -, -, hfind⟩ := terminateRunning_spec hinv hne hend
  intro pid process hp
  rw [hfind] at hp
  split_ifs at hp
  · obtain rfl := Option.some.inj hp
    exact ProcessState.noConfusion
  · exact h pid process hp

/-- Nothing in the runtime blocks a process. -/
theorem unblocked_of_step [LongDouble] {rt after : Runtime H} {result : ProcessLifecycleStepResult}
    (hinv : rt.table.Invariant) (hne : rt.table.running_pid ≠ 0) (h : Unblocked rt.table)
    (hstep : LifecycleStep rt result after) : Unblocked after.table := by
  have hinv' : (stepped rt).table.Invariant := hinv
  have hne' : (stepped rt).table.running_pid ≠ 0 := hne
  cases hstep with
  | early preempts =>
    obtain ⟨d, -, -, hd, -, rfl⟩ := preempts.switch
    exact unblocked_of_dispatchNext (d := ⟨rt.cpu, rt.table, rt.scheduler⟩) hinv h hd
  | late quiet goesOn preempts =>
    obtain ⟨d, -, -, hd, -, rfl⟩ := preempts.switch
    exact unblocked_of_dispatchNext (d := ⟨rt.cpu.step, rt.table, rt.scheduler⟩) hinv h hd
  | plain => exact h
  | terminates quiet stopped terminates =>
    cases terminates with
    | last captured terminated => exact unblocked_of_terminateRunning hinv' hne' h terminated
    | @switches staged next d captured terminated ready dispatched =>
      obtain ⟨-, -, -, -, -, -, hstaged, -, -⟩ := terminateRunning_spec hinv' hne' terminated
      exact unblocked_of_dispatchNext (d := ⟨rt.cpu.step, staged, rt.scheduler⟩) hstaged
        (unblocked_of_terminateRunning hinv' hne' h terminated) dispatched

/-- Without a blocked process a lifecycle goes on or completes. -/
theorem running_or_completed_of_step [LongDouble] {rt after : Runtime H}
    {result : ProcessLifecycleStepResult} (hrunning : rt.lifecycle.state = .Running)
    (hopen : Unblocked after.table) (hstep : LifecycleStep rt result after) :
    result.state = .Running ∨ result.state = .Completed := by
  cases hstep with
  | early preempts =>
    obtain ⟨d, -, -, -, -, rfl⟩ := preempts.switch
    exact .inl hrunning
  | late quiet goesOn preempts =>
    obtain ⟨d, -, -, -, -, rfl⟩ := preempts.switch
    exact .inl hrunning
  | plain => exact .inl hrunning
  | terminates quiet stopped terminates =>
    cases terminates with
    | switches => exact .inl rfl
    | @last staged captured terminated alone =>
      have hblocked : staged.processIdsInState .Blocked = [] := by
        by_contra hsome
        obtain ⟨pid, hmem⟩ := List.exists_mem_of_ne_nil _ hsome
        obtain ⟨process, hp, hstate⟩ := ProcessTable.mem_processIdsInState.mp hmem
        exact hopen pid process hp hstate
      refine .inr ?_
      show classifyWithoutRunning staged = .Completed
      rw [classifyWithoutRunning, alone, hblocked]
      rfl

/-! ## What the processes still need -/

namespace MultiProcessRunner

variable {host : H} {images : List ProcessImage} {options : MultiProcessRunOptions H}
  {base : Setup (Board H)} {rt before after : Runtime H} {s s' : RunState H} {left : ProcessId → ℕ}

/-- What every process of the runtime still needs. -/
structure Owes [LongDouble] (images : List ProcessImage) (left : ProcessId → ℕ) (rt : Runtime H) :
    Prop where
  live : ∀ pid process, rt.table.processes.find? pid = some process → process.state ≠ .Terminated →
    ∃ image, imageAt images pid = some image ∧ RoundsLeft image (liveState rt.cpu process) (left pid)
  ended : ∀ pid process, rt.table.processes.find? pid = some process →
    process.state = .Terminated → left pid = 0
  unblocked : Unblocked rt.table

/-- A step takes the running process on, to a state from which it needs `n` more rounds. -/
theorem Owes.step [LongDouble] (h : Owes images left before) (htable : rt.table = before.table)
    (hinv : rt.table.Invariant) (hne : rt.table.running_pid ≠ 0)
    (hrunning : rt.lifecycle.state = .Running) (hrecorded : rt.cpu.setup.Recorded)
    (hmessage : rt.cpu.core.state.hasError = false → rt.cpu.core.state.errorMessage = [])
    (hquiet : ¬ Due rt) {n : ℕ}
    (hgoes : ¬ Stopped rt.cpu.step → ∃ image, imageAt images rt.table.running_pid = some image
      ∧ RoundsLeft image rt.cpu.step.core.state n)
    (hstops : Stopped rt.cpu.step → n = 0) {result : ProcessLifecycleStepResult}
    (hstep : LifecycleStep rt result after) :
    Owes images (Function.update left rt.table.running_pid n) after := by
  obtain ⟨moved, hmoved, hlive⟩ := liveStep_of_step hinv hne hrecorded hmessage
    (fun hdue => absurd hdue hquiet) hstep
  obtain ⟨-, rfl⟩ := hmoved.resolve_left fun hdue => hquiet hdue.1
  obtain ⟨moved', preempted, hmoved', hterminates, -, haccounts⟩ :=
    accounts_of_step hinv hne hrunning hstep
  obtain ⟨-, rfl⟩ := hmoved'.resolve_left fun hdue => hquiet hdue.1
  have hstopped : result.process_terminated = true → Stopped rt.cpu.step := by
    intro hended
    cases hstep with
    | terminates quiet stopped terminates => exact stopped
    | _ => exact Bool.noConfusion hended
  refine ⟨fun pid process' hp hgoes' => ?_, fun pid process' hp hterminated => ?_,
    unblocked_of_step hinv hne (htable ▸ h.unblocked) hstep⟩
  · obtain ⟨process, hprocess, -, hsame⟩ := hlive.live pid process' hp
    obtain ⟨hgoes'', hsame⟩ := hsame hgoes'
    rw [hsame, liveState]
    split_ifs with hstate
    · -- The running process has not stopped, since it would have been terminated.
      obtain rfl := hinv.running_pid_eq hprocess hstate
      rw [Function.update_self]
      refine hgoes fun hstop => ?_
      obtain ⟨ended, hended, hon⟩ := haccounts.ended (hterminates hquiet hstop)
      obtain rfl := Option.some.inj (hended.symm.trans hp)
      exact hgoes' hon.terminated
    · have hother : pid ≠ rt.table.running_pid := by
        rintro rfl
        obtain ⟨running, hr, hstate'⟩ := (hinv.running rt.table.running_pid).mp ⟨rfl, hne⟩
        obtain rfl := Option.some.inj (hr.symm.trans hprocess)
        exact hstate hstate'
      rw [Function.update_of_ne hother]
      rw [htable] at hprocess
      obtain ⟨image, himage, hleft⟩ := h.live pid process hprocess hgoes''
      rw [liveState_of_idle hstate] at hleft
      exact ⟨image, himage, hleft⟩
  · rcases haccounts.table.fresh pid process' hp hterminated with hold | hfresh
    · have hother : pid ≠ rt.table.running_pid := by
        rintro rfl
        obtain ⟨running, hr, hstate'⟩ := (hinv.running rt.table.running_pid).mp ⟨rfl, hne⟩
        obtain rfl := Option.some.inj (hr.symm.trans hold)
        exact ProcessState.noConfusion (hstate'.symm.trans hterminated)
      rw [Function.update_of_ne hother]
      exact h.ended pid process' (htable ▸ hold) hterminated
    · split_ifs at hfresh with hended
      obtain rfl := Option.some.inj hfresh
      rw [Function.update_self]
      exact hstops (hstopped hended)

/-- What the listed processes still need together. -/
def totalLeft (left : ProcessId → ℕ) (rt : Runtime H) : ℕ := (rt.table.processes.keys.map left).sum

/-- A step pays one round of the running process. -/
theorem totalLeft_update (hinv : rt.table.Invariant) (hne : rt.table.running_pid ≠ 0) {n : ℕ}
    (hleft : left rt.table.running_pid = n + 1)
    (hkeys : after.table.processes.keys = rt.table.processes.keys) :
    totalLeft left rt = totalLeft (Function.update left rt.table.running_pid n) after + 1 := by
  have hmem := mem_keys_running hinv hne
  have hnodup := nodup_keys rt.table
  rw [totalLeft, totalLeft, hkeys, ← List.sum_map_erase left hmem,
    ← List.sum_map_erase (Function.update left rt.table.running_pid n) hmem, Function.update_self, hleft]
  have hothers : (rt.table.processes.keys.erase rt.table.running_pid).map left
      = (rt.table.processes.keys.erase rt.table.running_pid).map
        (Function.update left rt.table.running_pid n) := by
    refine List.map_congr_left fun pid hpid => (Function.update_of_ne ?_ _ _).symm
    exact (hnodup.mem_erase_iff.mp hpid).1
  rw [hothers]
  omega

/-- A round pays one of the rounds that the processes still need. -/
theorem Owes.iterate [LongDouble] {n p : ℕ} (h : Owes images left s.runtime)
    (hbase : Connected options base) (hhandler : options.software_interrupt_handler = none)
    (hfree : DeviceFree options) (hquantum : options.quantum ≠ 0)
    (haccounted : Accounted images options base n p s) (hroom : n + 1 < 2 ^ 64)
    (hrunning : s.runtimeState = .Running) (hiterate : MultiProcessRunner.iterate s = .ok s') :
    ∃ left', Owes images left' s'.runtime
      ∧ totalLeft left s.runtime = totalLeft left' s'.runtime + 1
      ∧ s'.lifecycleSteps = s.lifecycleSteps + 1
      ∧ (s'.runtimeState ≠ .Running → s'.runtimeState = .Completed ∧ totalLeft left' s'.runtime = 0) := by
  have hadmissible : Admissible options.software_interrupt_handler := hhandler ▸ .absent
  have hsteady := haccounted.steady
  have hinv := hsteady.settled.invariant
  have hlifecycle := hsteady.state.trans hrunning
  obtain ⟨hne, rt, result, after, hprepared, hstep, rfl⟩ := iterate_eq_ok hinv hlifecycle hiterate
  obtain ⟨image, himage, hresident⟩ := hsteady.settled.resident hne
  have hgoes := hsteady.going hne
  have hend := hsteady.settled.reachedExecutableEnd hne hgoes
  have hmessage := (haccounted.traced.goesOn hrunning).no_message
  have hleft : RoundsLeft image s.runtime.cpu.core.state (left s.runtime.table.running_pid) := by
    obtain ⟨process, hprocess, hstate⟩ := (hinv.running s.runtime.table.running_pid).mp ⟨rfl, hne⟩
    have hlive : process.state ≠ .Terminated := by
      rw [hstate]
      exact ProcessState.noConfusion
    obtain ⟨image', himage', hleft⟩ := h.live _ process hprocess hlive
    obtain rfl := Option.some.inj (himage.symm.trans himage')
    rwa [liveState_of_running hstate] at hleft
  have hcodeEnd : s.runtime.cpu.setup.userCodeEndExclusive = 512 + image.executable.code.length := by
    rw [hresident.setup]
    rfl
  -- Recording the round clears the observation on the CPU, which nothing here depends on.
  suffices hafter : ∃ m, left s.runtime.table.running_pid = m + 1
      ∧ Owes images (Function.update left s.runtime.table.running_pid m) after by
    obtain ⟨m, hpaid, howes⟩ := hafter
    have hrt : rt.table = s.runtime.table := hprepared.table
    have hlifecycle' : rt.lifecycle.state = .Running := hprepared.lifecycle ▸ hlifecycle
    have hkeys : after.table.processes.keys = s.runtime.table.processes.keys :=
      (haccounted.traced.iterate hrunning hiterate).keys.trans haccounted.traced.keys.symm
    refine ⟨_, ⟨howes.live, howes.ended, howes.unblocked⟩, totalLeft_update hinv hne hpaid hkeys, rfl,
      fun hstops => ?_⟩
    have hcompleted := (running_or_completed_of_step hlifecycle' howes.unblocked hstep).resolve_left
      hstops
    refine ⟨hcompleted, List.sum_eq_zero fun cost hcost => ?_⟩
    obtain ⟨pid, hpid, rfl⟩ := List.mem_map.mp hcost
    obtain ⟨process, hp⟩ := Option.isSome_iff_exists.mp ((SortedMap.mem_keys_iff _ _).mp hpid)
    exact howes.ended pid process hp (allTerminated_of_completed (hrt ▸ hinv) (hrt ▸ hne) hlifecycle'
      hstep hcompleted hp)
  cases hprepared with
  | running inside =>
    obtain rfl : p = 0 := by
      by_contra hp
      have hatEnd := (haccounted.tallied.at_end (Nat.pos_of_ne_zero hp)).1
      exact Bool.noConfusion (Except.ok.inj (hatEnd.symm.trans inside))
    have hquiet : ¬ Due s.runtime := fun hdue =>
      absurd ((due_iff haccounted.tallied.board).mp hdue).1 (lt_irrefl 0)
    have hnot : ¬ Over image s.runtime.cpu.core.state := by
      rintro (hstopped | hpc)
      · exact hgoes hstopped
      · rw [inside, hcodeEnd, hpc, beq_self_eq_true] at hend
        exact Bool.noConfusion (Except.ok.inj hend)
    have hstate : s.runtime.cpu.step.core.state = ownStep image s.runtime.cpu.core.state := by
      obtain ⟨-, -, hclock⟩ := step_onBoard hbase hadmissible hquantum haccounted.tallied.ticks_lt
        hresident hgoes haccounted.tallied.board
      rw [hclock hroom]
      exact hresident.step_state (hbase.secluded hhandler hfree) hgoes
    obtain ⟨m, hpaid, hrest⟩ := CostToGo.of_not_ended hleft hnot
    rw [← hstate] at hrest
    refine ⟨m, hpaid, h.step rfl hinv hne hlifecycle haccounted.traced.recorded (fun _ => hmessage)
      hquiet (fun _ => ⟨image, himage, hrest⟩) (fun hstopped => ?_) hstep⟩
    rw [CostToGo.of_ended hrest (.inl hstopped), lastRound_of_stopped hstopped]
  | completed atEnd =>
    have hover : Over image s.runtime.cpu.core.state := by
      rw [atEnd, hcodeEnd] at hend
      exact .inr (beq_iff_eq.mp (Except.ok.inj hend).symm)
    set rt : Runtime H := { discardCompletionTimerRequest s.runtime with
      cpu := haltCpu (discardCompletionTimerRequest s.runtime).cpu } with hrt
    have htable : rt.table = s.runtime.table := rfl
    have hinv' : rt.table.Invariant := hinv
    have hne' : rt.table.running_pid ≠ 0 := hne
    have hstopped : Stopped rt.cpu.step := by
      rw [Stopped, CPU.step_of_stopped (.inl rfl)]
      exact .inl rfl
    refine ⟨0, ?_, h.step htable hinv' hne' hlifecycle haccounted.traced.recorded (fun _ => hmessage)
      (not_due_completed s.runtime) (fun hgoes' => absurd hstopped hgoes') (fun _ => rfl) hstep⟩
    rw [CostToGo.of_ended hleft hover, lastRound_of_going hgoes]

/-! ## Runs -/

/-- The rounds of a run are those that its processes no longer need. -/
theorem owes_of_runLoop [LongDouble] (hbase : Connected options base)
    (hhandler : options.software_interrupt_handler = none) (hfree : DeviceFree options)
    (hquantum : options.quantum ≠ 0) {n p rounds : ℕ}
    (hroom : s.executionTrace.length + rounds < 2 ^ 64)
    (haccounted : Accounted images options base n p s) (h : Owes images left s.runtime)
    (hover : s.runtimeState ≠ .Running →
      s.runtimeState = .Completed ∧ totalLeft left s.runtime = 0)
    (hrun : runLoop rounds s = .ok s') :
    ∃ left', Owes images left' s'.runtime
      ∧ totalLeft left' s'.runtime + s'.lifecycleSteps = totalLeft left s.runtime + s.lifecycleSteps
      ∧ (s'.runtimeState ≠ .Running →
        s'.runtimeState = .Completed ∧ totalLeft left' s'.runtime = 0)
      ∧ (s'.runtimeState = .Running → s'.lifecycleSteps = s.lifecycleSteps + rounds)
      ∧ s'.lifecycleSteps ≤ s.lifecycleSteps + rounds := by
  induction rounds generalizing left n p s with
  | zero =>
    obtain rfl := Except.ok.inj hrun
    exact ⟨left, h, rfl, hover, fun _ => rfl, le_rfl⟩
  | succ rounds ih =>
    rw [runLoop] at hrun
    split_ifs at hrun with hstopped
    · obtain rfl := Except.ok.inj hrun
      exact ⟨left, h, rfl, hover, fun hrunning => absurd hrunning hstopped, Nat.le_add_right _ _⟩
    · obtain ⟨next, hnext, hrest⟩ := bind_eq_ok.mp hrun
      have hrunning := not_not.mp hstopped
      -- The ticks so far are instructions in the trace, one round adds at most one of them.
      have hticks : n ≤ s.executionTrace.length :=
        haccounted.tallied.executed ▸ List.countP_le_length
      obtain ⟨left', howes, hpaid, hsteps, hover'⟩ :=
        h.iterate hbase hhandler hfree hquantum haccounted (by omega) hrunning hnext
      obtain ⟨n', p', preempted, ended, haccounted', htallies⟩ :=
        haccounted.iterate hbase (hhandler ▸ .absent) hquantum hrunning hnext
      have hgrows := htallies.length_le
      obtain ⟨left'', howes', hbalance, hover'', hall, hle⟩ :=
        ih (by omega) haccounted' howes hover' hrest
      refine ⟨left'', howes', by omega, hover'', fun hstill => ?_, by omega⟩
      have hlast := hall hstill
      omega

/-- In the beginning every process needs what its image costs. -/
theorem Booted.owes [LongDouble] (h : Booted host images options s) {costs : List ℕ}
    (hcosts : List.Forall₂ (fun image => RoundsLeft image (initialState image)) images costs) :
    Owes images (fun pid => costs[pid - 1]?.getD 0) s.runtime
      ∧ totalLeft (fun pid => costs[pid - 1]?.getD 0) s.runtime = costs.sum := by
  obtain ⟨table, timer, selected, d, hcreated, -, hd, rfl⟩ := h.started
  have hkeeps := keepsLive_dispatchNext hcreated.invariant (fun hr => absurd hcreated.running hr) hd
  have hready : Unblocked table := by
    intro pid process hp
    obtain ⟨image, -, rfl⟩ := hcreated.find pid process hp
    exact ProcessState.noConfusion
  refine ⟨⟨fun pid process hp _ => ?_, fun pid process hp hterminated => ?_, ?_⟩, ?_⟩
  · obtain ⟨old, hold, hlive, -⟩ := hkeeps.live pid process hp
    obtain ⟨image, himage, rfl⟩ := hcreated.find pid old hold
    have hstart : liveState d.cpu process = initialState image := hlive
    refine ⟨image, himage, ?_⟩
    obtain ⟨hlt, rfl⟩ := List.getElem?_eq_some_iff.mp himage
    have hlt' : pid - 1 < costs.length := hcosts.length_eq ▸ hlt
    rw [hstart, List.getElem?_eq_getElem hlt', Option.getD_some]
    exact hcosts.get hlt hlt'
  · obtain ⟨old, hold, -, hiff⟩ := hkeeps.live pid process hp
    obtain ⟨image, -, rfl⟩ := hcreated.find pid old hold
    exact ProcessState.noConfusion (hiff.mp hterminated)
  · exact unblocked_of_dispatchNext (d := ⟨attachedCpu host options timer table, table, .initial⟩)
      hcreated.invariant hready hd
  -- The PIDs are 1 to the number of images, so the costs add up in order.
  · have hkeys : d.table.processes.keys = List.range' 1 costs.length := by
      rw [← hcosts.length_eq, ← hcreated.keys]
      exact hkeeps.keys
    show (d.table.processes.keys.map _).sum = costs.sum
    rw [hkeys]
    congr 1
    refine List.ext_getElem (by simp) fun i hi hi' => ?_
    rw [List.getElem_map, List.getElem_range', Nat.one_mul, Nat.add_sub_cancel_left,
      List.getElem?_eq_getElem hi', Option.getD_some]

/-- A run makes the rounds that its images need, as far as the step limit goes. -/
theorem lifecycle_steps_of_costs [LongDouble] (hhandler : options.software_interrupt_handler = none)
    (hfree : DeviceFree options) {result : MultiProcessRunResult}
    (hrun : runImages host images options = .ok result) {costs : List ℕ}
    (hcosts : List.Forall₂ (fun image => RoundsLeft image (initialState image)) images costs) :
    result.lifecycle_steps = min costs.sum options.max_lifecycle_steps.toNat
      ∧ (result.completed = true ↔ costs.sum ≤ options.max_lifecycle_steps.toNat) := by
  simp only [runImages, bind_eq_ok] at hrun
  obtain ⟨first, hboot, s, hloop, hfinish⟩ := hrun
  have hadmissible : Admissible options.software_interrupt_handler := hhandler ▸ .absent
  have hbooted := boot_eq_ok hboot
  obtain ⟨hquantum, -, base, hbase, haccounted⟩ := hbooted.accounted hadmissible
  obtain ⟨howes, htotal⟩ := hbooted.owes hcosts
  obtain ⟨hstarted, hempty, hnone⟩ : first.runtimeState = .Running ∧ first.executionTrace = []
      ∧ first.lifecycleSteps = 0 := by
    obtain ⟨table, timer, selected, d, -, -, -, rfl⟩ := hbooted.started
    exact ⟨rfl, rfl, rfl⟩
  have hroom : first.executionTrace.length + options.max_lifecycle_steps.toNat < 2 ^ 64 := by
    rw [hempty, List.length_nil, Nat.zero_add]
    exact options.max_lifecycle_steps.isLt
  obtain ⟨left, howes', hbalance, hover, hall, hle⟩ := owes_of_runLoop hbase hhandler hfree hquantum hroom
    haccounted howes (fun hstops => absurd hstarted hstops) hloop
  rw [htotal, hnone, Nat.add_zero] at hbalance
  rw [hnone, Nat.zero_add] at hall hle
  have hshown := finish_eq_ok hfinish
  have hcompleted : result.completed = true ↔ s.runtimeState = .Completed := by
    rw [MultiProcessRunResult.completed, Bool.and_eq_true, beq_iff_eq, hshown.runtime_state]
    refine ⟨And.right, fun hstate => ⟨?_, hstate⟩⟩
    rw [Bool.not_eq_true', Bool.eq_false_iff]
    intro hlimit
    exact ProcessRuntimeState.noConfusion ((hshown.step_limit_reached hlimit).symm.trans hstate)
  rw [hcompleted, hshown.lifecycle_steps]
  by_cases hrunning : s.runtimeState = .Running
  · -- The process on the CPU needs another round.
    obtain ⟨htraced, hconsistent⟩ := consistent_of_runLoop hadmissible hboot hloop
    have hne := hconsistent.onTime.running.mp hrunning
    obtain ⟨process, hprocess, hstate⟩ :=
      (htraced.invariant.running s.runtime.table.running_pid).mp ⟨rfl, hne⟩
    have hlive : process.state ≠ .Terminated := by
      rw [hstate]
      exact ProcessState.noConfusion
    obtain ⟨image, -, hleft⟩ := howes'.live _ process hprocess hlive
    rw [liveState_of_running hstate] at hleft
    obtain ⟨base', hbase', hsteady⟩ := steady_of_runLoop hadmissible hboot hloop
    have hpos := hleft.pos (hsteady.going hne)
    have hle : left s.runtime.table.running_pid ≤ totalLeft left s.runtime :=
      List.le_sum_of_mem (List.mem_map_of_mem (mem_keys_running htraced.invariant hne))
    have hsteps := hall hrunning
    refine ⟨by omega, iff_of_false (fun hstate => ?_) (by omega)⟩
    exact ProcessRuntimeState.noConfusion (hrunning.symm.trans hstate)
  · obtain ⟨hstate, hnothing⟩ := hover hrunning
    exact ⟨by omega, iff_of_true hstate (by omega)⟩

/-- By itself, with some quantum and step limit, an image completes in `rounds` rounds. -/
def CompletesIn [LongDouble] (options : MultiProcessRunOptions H) (image : ProcessImage) (rounds : ℕ) :
    Prop :=
  ∃ (host : H) (quantum limit : BitVec 64) (alone : MultiProcessRunResult),
    runImages host [image] { options with quantum := quantum, max_lifecycle_steps := limit } = .ok alone
      ∧ alone.completed = true ∧ alone.lifecycle_steps = rounds

/-- A run by itself counts what its image costs. -/
theorem CompletesIn.roundsLeft [LongDouble] (hhandler : options.software_interrupt_handler = none)
    (hfree : DeviceFree options) {image : ProcessImage} {rounds : ℕ}
    (h : CompletesIn options image rounds) : RoundsLeft image (initialState image) rounds := by
  obtain ⟨host, quantum, limit, alone, hrun, hcompleted, rfl⟩ := h
  set options' : MultiProcessRunOptions H :=
    { options with quantum := quantum, max_lifecycle_steps := limit } with hoptions'
  have hhandler' : options'.software_interrupt_handler = none := hhandler
  have hfree' : DeviceFree options' := hfree
  have hfirst : [image][0]? = some image := rfl
  obtain ⟨process, final, -, hlives, hover, -⟩ :=
    finished_of_runImages hhandler' hfree' hrun hcompleted hfirst
  obtain ⟨cost, hcost⟩ := Course.exists_cost hlives hover lastRound
  obtain ⟨hsteps, hiff⟩ :=
    lifecycle_steps_of_costs hhandler' hfree' hrun (.cons hcost .nil)
  have hle := hiff.mp hcompleted
  rw [List.sum_singleton] at hsteps hle
  rw [hsteps, min_eq_left hle]
  exact hcost

end MultiProcessRunner

open MultiProcessRunner

/-- Where User processes reach no device, a run of several images takes as many rounds as the images
take by themselves, whatever the quantum is, and completes exactly when the step limit is no smaller. -/
theorem rounds_add_up [LongDouble] {host : H} {images : List ProcessImage}
    {options : MultiProcessRunOptions H} (hhandler : options.software_interrupt_handler = none)
    (hfree : DeviceFree options) {rounds : List ℕ}
    (halone : List.Forall₂ (CompletesIn options) images rounds) {result : MultiProcessRunResult}
    (hrun : runImages host images options = .ok result) :
    result.lifecycle_steps = min rounds.sum options.max_lifecycle_steps.toNat
      ∧ (result.completed = true ↔ rounds.sum ≤ options.max_lifecycle_steps.toNat) :=
  lifecycle_steps_of_costs hhandler hfree hrun
    (halone.imp fun _ _ h => h.roundsLeft hhandler hfree)

/-- Three rounds and one round make four, with a switch after every instruction. -/
theorem rounds_add_up_two :
    letI : LongDouble := LongDouble.x87
    ∃ result, runImages () [nopsImage, trapImage] { plainOptions none with quantum := 1 } = .ok result
      ∧ result.lifecycle_steps = 4 ∧ result.completed = true := by
  let _ : LongDouble := LongDouble.x87
  have hfacts : (runImages () [nopsImage] (plainOptions none)).toOption.map
        (fun alone => (alone.completed, alone.lifecycle_steps)) = some (true, 3)
      ∧ (runImages () [trapImage] (plainOptions none)).toOption.map
        (fun alone => (alone.completed, alone.lifecycle_steps)) = some (true, 1)
      ∧ (runImages () [nopsImage, trapImage] { plainOptions none with quantum := 1 }).toOption.isSome
        = true := by
    decide +kernel
  obtain ⟨hnops, htrap, hboth⟩ := hfacts
  have halone : ∀ image rounds, (runImages () [image] (plainOptions none)).toOption.map
        (fun alone => (alone.completed, alone.lifecycle_steps)) = some (true, rounds) →
      CompletesIn { plainOptions none with quantum := 1 } image rounds := by
    intro image rounds hfact
    cases hrun : runImages () [image] (plainOptions none) with
    | error message =>
      rw [hrun] at hfact
      cases hfact
    | ok alone =>
      rw [hrun] at hfact
      obtain ⟨hcompleted, hrounds⟩ := Prod.ext_iff.mp (Option.some.inj hfact)
      exact ⟨(), _, _, alone, hrun, hcompleted, hrounds⟩
  cases hrun : runImages () [nopsImage, trapImage] { plainOptions none with quantum := 1 } with
  | error message =>
    rw [hrun] at hboth
    cases hboth
  | ok result =>
    have hfree : DeviceFree ({ plainOptions none with quantum := 1 } : MultiProcessRunOptions Unit) := by
      rintro bus ⟨⟩
    obtain ⟨hsteps, hiff⟩ := rounds_add_up rfl hfree
      (.cons (halone _ _ hnops) (.cons (halone _ _ htrap) .nil)) hrun
    exact ⟨result, rfl, hsteps, hiff.mpr (by decide)⟩

end ZeroCpu.Sys
