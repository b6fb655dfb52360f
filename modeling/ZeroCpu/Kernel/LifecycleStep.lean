import ZeroCpu.Kernel.ContextSwitch

/-!
# What a lifecycle step can do

Reference: `src/kernel/TimerPreemptiveScheduler.cpp`, `src/kernel/ProcessLifecycleManager.cpp`.

A step of a running lifecycle switches to another process before anything is executed, or executes
one instruction and then terminates the process, switches, or goes on. `LifecycleStep` says so once,
for every runtime on which `ProcessLifecycleManager::step` returns.
-/

namespace ZeroCpu.Kernel

open Library

variable {H : Type}

/-! ## Preemption -/

namespace TimerPreemptiveScheduler

/-- A timer request is pending and the running process may be switched out. -/
def Due (rt : Runtime H) : Prop :=
  rt.board.controller.hasPendingFrom rt.board.timer.vector kTimerSource = true
    ∧ atUserCodeEnd rt.cpu = false

/-- The runtime after a switch on a timer request. -/
def preempted (rt : Runtime H) (d : Dispatch (Board H)) (controller : InterruptController)
    (selected : ProcessId) : Runtime H :=
  let switched := (Runtime.dispatchRef.set d rt).setController controller
  { switched with preemptive := { rt.preemptive with
    preemption_count := rt.preemptive.preemption_count + 1
    context_switch_count := rt.preemptive.context_switch_count
      + if selected ≠ rt.table.running_pid then 1 else 0 } }

/-- A switch on a timer request from `rt` to `selected`. -/
structure Preempts (rt : Runtime H) (selected : ProcessId) (rt' : Runtime H) : Prop where
  due : Due rt
  switch : ∃ d request controller,
    dispatchNext ⟨rt.cpu, rt.table, rt.scheduler⟩ = (.ok selected, d)
      ∧ d.cpu.core.world.controller.acknowledgeFrom d.cpu.core.world.timer.vector kTimerSource
        = .ok (request, controller)
      ∧ rt' = preempted rt d controller selected

/-- The running process is returned when there is one. -/
theorem runningProcessId_eq_ok {table : ProcessTable} {pid : ProcessId} :
    table.runningProcessId = .ok pid ↔ table.running_pid ≠ 0 ∧ table.running_pid = pid := by
  rw [ProcessTable.runningProcessId, bind_eq_ok]
  constructor
  · rintro ⟨_, hrun, hpid⟩
    rw [reject_eq_ok, not_not] at hrun
    exact ⟨ProcessTable.hasRunningProcess_iff.mp hrun, Except.ok.inj hpid⟩
  · rintro ⟨hne, rfl⟩
    exact ⟨(), reject_eq_ok.mpr (not_not.mpr (ProcessTable.hasRunningProcess_iff.mpr hne)), rfl⟩

/-- What a preemption does when it returns. -/
theorem preempt_eq_ok {rt rt' : Runtime H} {selected : ProcessId} (hdue : Due rt)
    (h : preempt rt = (.ok selected, rt')) : Preempts rt selected rt' := by
  rw [preempt, Exec.get_bind_eq_ok, Exec.lift_bind_eq_ok] at h
  obtain ⟨previous, hprevious, h⟩ := h
  obtain ⟨-, rfl⟩ := runningProcessId_eq_ok.mp hprevious
  rw [Exec.bind_eq_ok] at h
  obtain ⟨pid, _, hzoom, h⟩ := h
  obtain ⟨d, hd, rfl⟩ := Exec.zoom_eq_ok.mp hzoom
  rw [Exec.get_bind_eq_ok, Exec.lift_bind_eq_ok] at h
  obtain ⟨⟨request, controller⟩, hack, h⟩ := h
  rw [Exec.modify_bind_eq_ok, Exec.require_bind_eq_ok, Exec.modify_bind_eq_ok] at h
  obtain ⟨-, h⟩ := h
  obtain ⟨rfl, rfl⟩ := Exec.pure_eq_ok.mp h
  exact ⟨hdue, d, request, controller, hd, hack, rfl⟩

/-- A pending request is serviced unless the process is at the end of its code. -/
theorem servicePendingPreemption_eq_ok {rt rt' : Runtime H} {r : Option ProcessId}
    (h : servicePendingPreemption rt = (.ok r, rt')) :
    (∃ selected, r = some selected ∧ Preempts rt selected rt') ∨ (r = none ∧ ¬ Due rt ∧ rt' = rt) := by
  rw [servicePendingPreemption, Exec.get_bind_eq_ok] at h
  split_ifs at h with hpending hend
  · obtain ⟨rfl, rfl⟩ := Exec.pure_eq_ok.mp h
    refine .inr ⟨rfl, fun hdue => ?_, rfl⟩
    rw [hdue.1] at hpending
    cases hpending
  · obtain ⟨rfl, rfl⟩ := Exec.pure_eq_ok.mp h
    refine .inr ⟨rfl, fun hdue => ?_, rfl⟩
    rw [hdue.2] at hend
    cases hend
  · rw [Exec.bind_eq_ok] at h
    obtain ⟨selected, s, hpreempt, h⟩ := h
    obtain ⟨rfl, rfl⟩ := Exec.pure_eq_ok.mp h
    have hdue : Due rt := ⟨by simpa using hpending, by simpa using hend⟩
    exact .inl ⟨selected, rfl, preempt_eq_ok hdue hpreempt⟩

/-- The CPU has stopped. -/
def Stopped {W : Type} (cpu : CPU W) : Prop :=
  cpu.core.state.halted = true ∨ cpu.core.state.hasError = true

/-- The runtime with one CPU step made. -/
def stepped [LongDouble] (rt : Runtime H) : Runtime H := { rt with cpu := rt.cpu.step }

/-- What `step` can do. -/
inductive TimerStep [LongDouble] (rt : Runtime H) : Runtime H → Prop
  | early {selected : ProcessId} {rt' : Runtime H} (preempts : Preempts rt selected rt') :
      TimerStep rt rt'
  | stopped (quiet : ¬ Due rt) (stopped : Stopped (stepped rt).cpu) : TimerStep rt (stepped rt)
  | late {selected : ProcessId} {rt' : Runtime H} (quiet : ¬ Due rt)
      (goesOn : ¬ Stopped (stepped rt).cpu) (preempts : Preempts (stepped rt) selected rt') :
      TimerStep rt rt'
  | plain (quiet : ¬ Due rt) (goesOn : ¬ Stopped (stepped rt).cpu) (quiet' : ¬ Due (stepped rt)) :
      TimerStep rt (stepped rt)

/-- What a step of the timer scheduler does when it returns. -/
theorem step_eq_ok [LongDouble] {rt rt' : Runtime H} {pid : ProcessId}
    (h : step rt = (.ok pid, rt')) : TimerStep rt rt' := by
  rw [step, Exec.get_bind_eq_ok, Exec.require_bind_eq_ok, Exec.require_bind_eq_ok,
    Exec.require_bind_eq_ok, Exec.lift_bind_eq_ok] at h
  obtain ⟨-, -, -, running, -, h⟩ := h
  rw [Exec.bind_eq_ok] at h
  obtain ⟨serviced, s, hservice, h⟩ := h
  -- A pending request is served before the instruction, or there is none and the instruction runs.
  rcases servicePendingPreemption_eq_ok hservice with ⟨selected, rfl, hpreempts⟩ | ⟨rfl, hquiet, rfl⟩
  · obtain ⟨-, rfl⟩ := Exec.pure_eq_ok.mp h
    exact .early hpreempts
  · dsimp only at h
    rw [stepCpu, Exec.modify_bind_eq_ok, Exec.get_bind_eq_ok] at h
    split_ifs at h with hstop
    · obtain ⟨-, rfl⟩ := Exec.lift_eq_ok.mp h
      rw [Bool.or_eq_true] at hstop
      exact .stopped hquiet hstop.symm
    · have hgoes : ¬ Stopped (stepped s).cpu := by
        intro hstopped
        refine hstop ?_
        rw [Bool.or_eq_true]
        exact hstopped.symm
      rw [Exec.bind_eq_ok] at h
      obtain ⟨serviced, s', hservice', h⟩ := h
      obtain ⟨-, rfl⟩ := Exec.pure_eq_ok.mp h
      rcases servicePendingPreemption_eq_ok hservice' with ⟨selected, -, hp⟩ | ⟨-, hquiet', rfl⟩
      · exact .late hquiet hgoes hp
      · exact .plain hquiet hgoes hquiet'

/-- A switch leaves the CPU running. -/
theorem Preempts.not_stopped {rt rt' : Runtime H} {selected : ProcessId} (hinv : rt.table.Invariant)
    (h : Preempts rt selected rt') : ¬ Stopped rt'.cpu := by
  obtain ⟨d, request, controller, hd, -, rfl⟩ := h.switch
  obtain ⟨-, -, ⟨process, -, hholds⟩, -⟩ := find?_of_dispatchNext hinv hd
  rintro (hhalted | herror)
  · exact absurd (hholds.not_halted.symm.trans hhalted) nofun
  · exact absurd (hholds.no_error.symm.trans herror) nofun

end TimerPreemptiveScheduler

/-! ## Termination -/

namespace ProcessLifecycleManager

open TimerPreemptiveScheduler

/-- The body shared by the two ways a process terminates. -/
theorem terminateRunning_eq (rt : Runtime H) (pid : ProcessId) (context : ProcessContext) :
    ∃ exitCode kind message, terminateRunning rt pid context
      = rt.table.finish pid context rt.cpu.core.state.memory exitCode kind message := by
  rw [terminateRunning]
  split_ifs
  · exact ⟨_, _, _, rfl⟩
  · exact ⟨_, _, _, rfl⟩

/-- The lifecycle manager with one more termination counted. -/
def counted (rt : Runtime H) (state : ProcessRuntimeState) : ProcessLifecycleManager :=
  { rt.lifecycle with
    state := state
    termination_count := rt.lifecycle.termination_count + 1
    fault_count := rt.lifecycle.fault_count + if rt.cpu.core.state.hasError then 1 else 0 }

/-- `cpu.clearProcessExitRequest()` when the process that stopped on `stopped` had asked to exit. -/
def clearExit (stopped cpu : CPU (Board H)) : CPU (Board H) :=
  if !stopped.core.state.hasError && stopped.core.processExitRequest.isSome then
    { cpu with core := { cpu.core with processExitRequest := none } }
  else cpu

/-- What `step` can do once the CPU has stopped: the running process is terminated as it is on the
CPU, and the next one is put on the CPU if there is one. -/
inductive Terminates (rt : Runtime H) : ProcessLifecycleStepResult → Runtime H → Prop
  | last {staged : ProcessTable}
      (captured : captureProcessContextSnapshot rt.table.running_pid rt.cpu
        = .ok (contextOf rt.table.running_pid rt.cpu))
      (terminated : terminateRunning rt rt.table.running_pid
        (contextOf rt.table.running_pid rt.cpu) = .ok staged)
      (alone : staged.processIdsInState .Ready = []) :
      Terminates rt
        ⟨classifyWithoutRunning staged, true, rt.cpu.core.state.hasError, rt.table.running_pid, 0⟩
        { rt with
          cpu := haltCpu (clearExit rt.cpu rt.cpu)
          table := staged
          lifecycle := counted rt (classifyWithoutRunning staged) }
  | switches {staged : ProcessTable} {next : ProcessId} {d : Dispatch (Board H)}
      (captured : captureProcessContextSnapshot rt.table.running_pid rt.cpu
        = .ok (contextOf rt.table.running_pid rt.cpu))
      (terminated : terminateRunning rt rt.table.running_pid
        (contextOf rt.table.running_pid rt.cpu) = .ok staged)
      (ready : staged.processIdsInState .Ready ≠ [])
      (dispatched : dispatchNext ⟨rt.cpu, staged, rt.scheduler⟩ = (.ok next, d)) (ne : next ≠ 0) :
      Terminates rt
        ⟨.Running, true, rt.cpu.core.state.hasError, rt.table.running_pid, next⟩
        { rt with
          cpu := clearExit rt.cpu d.cpu
          table := d.table
          scheduler := d.scheduler
          lifecycle := counted rt .Running }

/-- What ending a stopped process does when it returns. -/
theorem terminateStopped_eq_ok {rt rt' : Runtime H} {result : ProcessLifecycleStepResult}
    (hinv : rt.table.Invariant) (h : terminateStopped rt = (.ok result, rt')) :
    Terminates rt result rt' := by
  rw [terminateStopped, Exec.get_bind_eq_ok, Exec.lift_bind_eq_ok] at h
  obtain ⟨pid, hpid, h⟩ := h
  obtain ⟨-, rfl⟩ := runningProcessId_eq_ok.mp hpid
  rw [Exec.lift_bind_eq_ok] at h
  obtain ⟨context, hcontext, h⟩ := h
  -- The snapshot is the context of the CPU, whatever its checks said.
  have hcaptured := hcontext
  obtain rfl : contextOf rt.table.running_pid rt.cpu = context := by
    simp only [captureProcessContextSnapshot, bind_eq_ok] at hcontext
    obtain ⟨_, -, _, -, hc⟩ := hcontext
    exact Except.ok.inj hc
  rw [Exec.lift_bind_eq_ok] at h
  obtain ⟨staged, hstaged, h⟩ := h
  rw [Exec.bind_eq_ok] at h
  obtain ⟨next, s, hdispatch, h⟩ := h
  rw [Exec.modify_bind_eq_ok, Exec.modify_bind_eq_ok, Exec.get_bind_eq_ok] at h
  obtain ⟨rfl, rfl⟩ := Exec.pure_eq_ok.mp h
  rw [dispatchReady, Exec.get_bind_eq_ok] at hdispatch
  -- No process left, or the next one is dispatched.
  split_ifs at hdispatch with hready
  · rw [Exec.modify_bind_eq_ok] at hdispatch
    obtain ⟨rfl, rfl⟩ := Exec.pure_eq_ok.mp hdispatch
    exact .last hcaptured hstaged (List.isEmpty_iff.mp hready)
  · rw [Exec.lift_bind_eq_ok] at hdispatch
    obtain ⟨⟨pid, d⟩, hd, hdispatch⟩ := hdispatch
    rw [Exec.modify_bind_eq_ok] at hdispatch
    obtain ⟨rfl, rfl⟩ := Exec.pure_eq_ok.mp hdispatch
    have hdispatched : dispatchNext ⟨rt.cpu, staged, rt.scheduler⟩ = (.ok pid, d) := by
      generalize dispatchNext ⟨rt.cpu, staged, rt.scheduler⟩ = out at hd ⊢
      rcases out with ⟨e | next, d'⟩
      · cases hd
      · obtain ⟨rfl, rfl⟩ := Prod.ext_iff.mp (Except.ok.inj hd)
        rfl
    -- The process selected is an entry of the table, so its PID is not 0.
    have hne : pid ≠ 0 := by
      obtain ⟨exitCode, kind, message, heq⟩ := terminateRunning_eq rt rt.table.running_pid
        (contextOf rt.table.running_pid rt.cpu)
      have hinv' := hinv.finish (heq ▸ hstaged)
      obtain ⟨hinv'', -, ⟨process, hprocess, -⟩, -⟩ := find?_of_dispatchNext hinv' hdispatched
      exact (hinv''.entry hprocess).pid_ne
    have hstep := Terminates.switches hcaptured hstaged (fun h => hready (List.isEmpty_iff.mpr h))
      hdispatched hne
    simp only [ne_eq, hne, not_false_eq_true, if_true]
    exact hstep

/-! ## Steps -/

/-- What `step` can do while the lifecycle is running. -/
inductive LifecycleStep [LongDouble] (rt : Runtime H) :
    ProcessLifecycleStepResult → Runtime H → Prop
  | early {selected : ProcessId} {rt' : Runtime H} (preempts : Preempts rt selected rt') :
      LifecycleStep rt ⟨rt'.lifecycle.state, false, false, 0, rt'.table.running_pid⟩ rt'
  | late {selected : ProcessId} {rt' : Runtime H} (quiet : ¬ Due rt)
      (goesOn : ¬ Stopped (stepped rt).cpu) (preempts : Preempts (stepped rt) selected rt') :
      LifecycleStep rt ⟨rt'.lifecycle.state, false, false, 0, rt'.table.running_pid⟩ rt'
  | plain (quiet : ¬ Due rt) (goesOn : ¬ Stopped (stepped rt).cpu) (quiet' : ¬ Due (stepped rt)) :
      LifecycleStep rt ⟨rt.lifecycle.state, false, false, 0, rt.table.running_pid⟩ (stepped rt)
  | terminates {result : ProcessLifecycleStepResult} {rt' : Runtime H} (quiet : ¬ Due rt)
      (stopped : Stopped (stepped rt).cpu) (terminates : Terminates (stepped rt) result rt') :
      LifecycleStep rt result rt'

/-- What a step of the lifecycle does when it returns. -/
theorem step_eq_ok [LongDouble] {rt rt' : Runtime H} {result : ProcessLifecycleStepResult}
    (hinv : rt.table.Invariant) (hrunning : rt.lifecycle.state = .Running)
    (h : step rt = (.ok result, rt')) : LifecycleStep rt result rt' := by
  rw [step, Exec.get_bind_eq_ok, Exec.require_bind_eq_ok] at h
  obtain ⟨-, h⟩ := h
  rw [if_neg (not_not.mpr hrunning), Exec.require_bind_eq_ok, Exec.bind_eq_ok] at h
  obtain ⟨-, pid, s, hstep, h⟩ := h
  have htimer := TimerPreemptiveScheduler.step_eq_ok hstep
  rw [Exec.get_bind_eq_ok] at h
  split_ifs at h with hgoes
  · rw [Exec.lift_bind_eq_ok] at h
    obtain ⟨running, hpid, h⟩ := h
    obtain ⟨-, rfl⟩ := runningProcessId_eq_ok.mp hpid
    obtain ⟨rfl, rfl⟩ := Exec.pure_eq_ok.mp h
    cases htimer with
    | early preempts => exact .early preempts
    | late quiet goesOn preempts => exact .late quiet goesOn preempts
    | plain quiet goesOn quiet' => exact .plain quiet goesOn quiet'
    | stopped quiet stopped =>
      rw [Bool.and_eq_true, Bool.not_eq_true', Bool.not_eq_true'] at hgoes
      exact stopped.elim (fun hh => absurd (hgoes.1.symm.trans hh) nofun)
        fun he => absurd (hgoes.2.symm.trans he) nofun
  · have hstopped : Stopped s.cpu := by
      by_contra hrun
      obtain ⟨hh, he⟩ := not_or.mp hrun
      exact hgoes (by simp [hh, he])
    cases htimer with
    | early preempts => exact absurd hstopped (preempts.not_stopped hinv)
    | late quiet goesOn preempts =>
      have hinv' : (stepped rt).table.Invariant := hinv
      exact absurd hstopped (preempts.not_stopped hinv')
    | plain quiet goesOn quiet' => exact absurd hstopped goesOn
    | stopped quiet stopped => exact .terminates quiet stopped (terminateStopped_eq_ok hinv h)

/-- A step reports the state that the lifecycle is left in. -/
theorem LifecycleStep.state [LongDouble] {rt rt' : Runtime H} {result : ProcessLifecycleStepResult}
    (h : LifecycleStep rt result rt') : rt'.lifecycle.state = result.state := by
  cases h with
  | early => rfl
  | late => rfl
  | plain => rfl
  | terminates quiet stopped terminates => cases terminates <;> rfl

/-! ## Steps that return and steps that throw -/

/-- The table is in order, and the lifecycle in the given state. -/
structure Settles (state : ProcessRuntimeState) (rt : Runtime H) : Prop where
  invariant : rt.table.Invariant
  state : rt.lifecycle.state = state

/-- A context switch keeps the invariant of the table. -/
theorem keeps_dispatchNext {W : Type} :
    Exec.Keeps (fun d : Dispatch W => d.table.Invariant) dispatchNext := by
  intro d hinv
  rcases hrun : dispatchNext d with ⟨e | selected, d'⟩
  · obtain rfl := dispatchNext_error hrun
    exact hinv
  · exact (find?_of_dispatchNext hinv hrun).1

/-- A preemption keeps the table and the state of the lifecycle. -/
theorem keeps_preempt (state : ProcessRuntimeState) :
    Exec.Keeps (Settles (H := H) state) preempt := by
  refine Exec.Keeps.get.bind fun _ => (Exec.Keeps.lift _).bind fun previous => ?_
  refine Exec.Keeps.bind (fun rt h => ⟨keeps_dispatchNext _ h.invariant, h.state⟩) fun selected => ?_
  refine Exec.Keeps.get.bind fun _ => (Exec.Keeps.lift _).bind fun acknowledged => ?_
  refine (Exec.Keeps.modify fun _ h => ⟨h.invariant, h.state⟩).bind fun _ => ?_
  refine (Exec.Keeps.require _ _).bind fun _ => ?_
  exact (Exec.Keeps.modify fun _ h => ⟨h.invariant, h.state⟩).bind fun _ => Exec.Keeps.pure _

/-- Serving a request keeps the table and the state of the lifecycle. -/
theorem keeps_servicePendingPreemption (state : ProcessRuntimeState) :
    Exec.Keeps (Settles (H := H) state) servicePendingPreemption := by
  refine Exec.Keeps.get.bind fun _ => ?_
  split_ifs
  · exact Exec.Keeps.pure _
  · exact Exec.Keeps.pure _
  · exact (keeps_preempt state).bind fun _ => Exec.Keeps.pure _

/-- A step of the timer scheduler keeps the table and the state of the lifecycle. -/
theorem keeps_timerStep [LongDouble] (state : ProcessRuntimeState) :
    Exec.Keeps (Settles (H := H) state) TimerPreemptiveScheduler.step := by
  refine Exec.Keeps.get.bind fun _ => (Exec.Keeps.require _ _).bind fun _ => ?_
  refine (Exec.Keeps.require _ _).bind fun _ => (Exec.Keeps.require _ _).bind fun _ => ?_
  refine (Exec.Keeps.lift _).bind fun running => ?_
  refine (keeps_servicePendingPreemption state).bind fun serviced => ?_
  cases serviced with
  | some selected => exact Exec.Keeps.pure _
  | none =>
    refine (Exec.Keeps.modify fun _ h => ⟨h.invariant, h.state⟩).bind fun _ => ?_
    refine Exec.Keeps.get.bind fun _ => ?_
    split_ifs
    · exact Exec.Keeps.lift _
    · exact (keeps_servicePendingPreemption state).bind fun _ => Exec.Keeps.pure _

/-- Dispatching a ready process keeps the table and the state of the lifecycle. -/
theorem keeps_dispatchReady {staged : ProcessTable} (hstaged : staged.Invariant)
    (state : ProcessRuntimeState) : Exec.Keeps (Settles (H := H) state) (dispatchReady staged) := by
  intro rt h
  rw [dispatchReady, Exec.bind_of_ok (Exec.get_apply rt)]
  split_ifs
  · exact ⟨hstaged, h.state⟩
  · have hkeeps := keeps_dispatchNext (⟨rt.cpu, staged, rt.scheduler⟩ : Dispatch (Board H)) hstaged
    generalize dispatchNext ⟨rt.cpu, staged, rt.scheduler⟩ = out at hkeeps ⊢
    rcases out with ⟨e | selected, d⟩
    · exact h
    · exact ⟨hkeeps, h.state⟩

/-- Ending a process leaves a table with its invariant. -/
theorem terminateStopped_settles (state : ProcessRuntimeState) :
    Exec.Triple (Settles (H := H) state) terminateStopped
      (fun result => Settles result.state) fun _ => Settles state := by
  intro rt h
  rw [terminateStopped, Exec.bind_of_ok (Exec.get_apply rt)]
  refine ((Exec.Keeps.lift _).triple.bind fun terminated => ?_) rt h
  refine (Exec.Keeps.lift _).triple.bind fun context => ?_
  have hstaged : Exec.Triple (Settles (H := H) state)
      (Exec.lift (terminateRunning rt terminated context))
      (fun staged s => staged.Invariant ∧ Settles state s) fun _ => Settles state := by
    refine Exec.Triple.lift (fun s staged hs hterminate => ⟨?_, hs⟩) fun _ _ hs _ => hs
    obtain ⟨exitCode, kind, message, heq⟩ := terminateRunning_eq rt terminated context
    exact h.invariant.finish (heq ▸ hterminate)
  refine hstaged.bind fun staged s hs => ?_
  refine ((keeps_dispatchReady hs.1 state).triple.bind fun next => ?_) s hs.2
  intro t ht
  rw [Exec.bind_of_ok (Exec.modify_apply _ _), Exec.bind_of_ok (Exec.modify_apply _ _),
    Exec.bind_of_ok (Exec.get_apply _)]
  refine ⟨?_, rfl⟩
  split_ifs <;> exact ht.invariant

/-- A step that returns reports the state it leaves the lifecycle in, and one that throws leaves the
state as it was; the table stays in order. -/
theorem step_settles [LongDouble] (state : ProcessRuntimeState) :
    Exec.Triple (Settles (H := H) state) step
      (fun result => Settles result.state) fun _ => Settles state := by
  intro rt h
  rw [step, Exec.bind_of_ok (Exec.get_apply rt)]
  refine ((Exec.Keeps.require _ _).triple.bind fun _ => ?_) rt h
  split_ifs
  · exact Exec.Triple.pure fun s hs => ⟨hs.invariant, hs.state.trans h.state.symm⟩
  · refine (Exec.Keeps.require _ _).triple.bind fun _ => ?_
    refine (keeps_timerStep state).triple.bind fun _ s hs => ?_
    rw [Exec.bind_of_ok (Exec.get_apply s)]
    split_ifs
    · refine ((Exec.Keeps.lift _).triple.bind fun running => ?_) s hs
      exact Exec.Triple.pure fun t ht => ⟨ht.invariant, ht.state.trans hs.state.symm⟩
    · exact terminateStopped_settles state s hs

end ProcessLifecycleManager

end ZeroCpu.Kernel
