import ZeroCpu.Kernel.Accounts
import ZeroCpu.Kernel.Progress
import ZeroCpu.Kernel.Strands
import ZeroCpu.System.Residents

/-!
# Fault isolation

Reference: `src/system/MultiProcessRunner.cpp`, `runImages`; `src/kernel/ProcessLifecycleManager.cpp`,
`step`.

A round of the loop fails in two ways only: the running process strands a system call at the end of
its code, or the round switches to a process whose executable the binary loader refuses. `DeadEnd`
says so about the runtime before the round. A round that is no dead end returns, and whatever the
instruction does, it ends at most the process that has executed it.
-/

namespace ZeroCpu.Sys

open Library Kernel

variable {H : Type}

section Steps

open ProcessLifecycleManager TimerPreemptiveScheduler RoundRobinScheduler

variable {images : List ProcessImage} {base : Setup (Board H)} {rt rt' : Runtime H}
  {image : ProcessImage}

/-! ## Preemption -/

/-- A settled runtime may be switched. -/
theorem Settled.switchable (h : Settled images base rt)
    (hpc : rt.table.running_pid ≠ 0 → atUserCodeEnd rt.cpu = false)
    (hidle : rt.cpu.core.usingKernelInterruptStack = false) :
    Switchable NoVectors (imageAt images) base ⟨rt.cpu, rt.table, rt.scheduler⟩ where
  invariant := h.invariant
  owned := h.owned
  shared := h.shared
  running hne := by
    obtain ⟨image, himage, hresident⟩ := h.resident hne
    exact ⟨image, himage, hresident, pc_lt_of_not_atUserCodeEnd hresident (hpc hne)⟩
  idle := hidle

/-- A preemption succeeds when its switch does: the request that made it due is still there. -/
theorem preempt_ok (hinv : rt.table.Invariant) (hne : rt.table.running_pid ≠ 0) (hdue : Due rt)
    {selected : ProcessId} {d : Dispatch (Board H)}
    (hdispatch : dispatchNext ⟨rt.cpu, rt.table, rt.scheduler⟩ = (.ok selected, d)) :
    ∃ rt', preempt rt = (.ok selected, rt') := by
  obtain ⟨-, -, -, hsame, -⟩ :=
    find?_of_dispatchNext (d := ⟨rt.cpu, rt.table, rt.scheduler⟩) hinv hdispatch
  have hpid : rt.table.runningProcessId = .ok rt.table.running_pid :=
    runningProcessId_eq_ok.mpr ⟨hne, rfl⟩
  have hzoom : Exec.zoom Runtime.dispatchRef dispatchNext rt
      = (.ok selected, Runtime.dispatchRef.set d rt) := by
    rw [Exec.zoom_apply]
    simp only [Runtime.dispatchRef, hdispatch]
  -- The switch leaves the controller alone, so the request is still there to acknowledge.
  have hpending : d.cpu.core.world.controller.hasPendingFrom d.cpu.core.world.timer.vector
      kTimerSource = true := by
    rw [hsame.world]
    exact hdue.1
  obtain ⟨request, hfind⟩ := Option.isSome_iff_exists.mp hpending
  have hmatch : (request.vector == d.cpu.core.world.timer.vector && request.source == kTimerSource)
      = true := by
    rw [InterruptController.findDeliverableFrom] at hfind
    split_ifs at hfind
    exact List.find?_some (p := InterruptController.matching _ _) hfind
  have hack : d.cpu.core.world.controller.acknowledgeFrom d.cpu.core.world.timer.vector kTimerSource
      = .ok (request, { d.cpu.core.world.controller with
        pending := d.cpu.core.world.controller.pending.eraseP
          (InterruptController.matching d.cpu.core.world.timer.vector kTimerSource) }) := by
    rw [InterruptController.acknowledgeFrom, hfind]
  simp only [preempt, Exec.bind_apply, Exec.get_apply, Exec.lift_apply, hpid, hzoom]
  simp only [Runtime.board, Runtime.dispatchRef, hack, Exec.modify_apply, Exec.require_apply,
    Runtime.setController, hmatch, if_true, Exec.pure_apply]
  exact ⟨_, rfl⟩

/-- After a switch a process runs. -/
theorem Preempts.running_ne {selected : ProcessId} (hinv : rt.table.Invariant)
    (h : Preempts rt selected rt') : rt'.table.running_pid ≠ 0 := by
  obtain ⟨d, request, controller, hd, -, rfl⟩ := h.switch
  obtain ⟨hinv', hselected, ⟨process, hprocess, -⟩, -⟩ :=
    find?_of_dispatchNext (d := ⟨rt.cpu, rt.table, rt.scheduler⟩) hinv hd
  show d.table.running_pid ≠ 0
  rw [hselected]
  exact (hinv'.entry hprocess).pid_ne

/-- Without a due request nothing happens. -/
theorem servicePendingPreemption_of_quiet (hquiet : ¬ Due rt) :
    servicePendingPreemption rt = (.ok none, rt) := by
  rw [servicePendingPreemption, Exec.bind_apply, Exec.get_apply]
  dsimp only
  split_ifs with hpending hend
  · rfl
  · rfl
  · refine absurd ⟨?_, ?_⟩ hquiet
    · simpa using hpending
    · simpa using hend

/-- A due request preempts. -/
theorem servicePendingPreemption_of_due (hdue : Due rt) {selected : ProcessId}
    (h : preempt rt = (.ok selected, rt')) :
    servicePendingPreemption rt = (.ok (some selected), rt') := by
  rw [servicePendingPreemption, Exec.bind_apply, Exec.get_apply]
  dsimp only
  rw [hdue.1, hdue.2, Bool.not_true, if_neg Bool.false_ne_true, if_neg Bool.false_ne_true,
    Exec.bind_of_ok h]
  rfl

/-! ## Steps -/

/-- The objects of the runtime have been started. -/
structure Started (rt : Runtime H) : Prop where
  attached : rt.preemptive.attached = true
  preemptive : rt.preemptive.started = true
  lifecycle : rt.lifecycle.started = true

/-- `pid` is the process that a step from `rt` puts on the CPU. -/
inductive SwitchesTo [LongDouble] (rt : Runtime H) (pid : ProcessId) : Prop
  | early (due : Due rt) (selects : Selects rt.table rt.scheduler pid)
  | late (quiet : ¬ Due rt) (goesOn : ¬ Stopped (stepped rt).cpu) (due : Due (stepped rt))
      (selects : Selects rt.table rt.scheduler pid)
  | ended (quiet : ¬ Due rt) (stopped : Stopped (stepped rt).cpu)
      (selects : SelectsReady rt.table rt.scheduler pid)

/-- A step of the timer's scheduler, once its checks have been made. -/
theorem timerStep_eq [LongDouble] (hstarted : Started rt) (hne : rt.table.running_pid ≠ 0) :
    TimerPreemptiveScheduler.step rt = (servicePendingPreemption >>= fun serviced =>
      match serviced with
      | some selectedPid => pure selectedPid
      | none => stepCpu rt.table.running_pid) rt := by
  have hhas : rt.table.hasRunningProcess = true := ProcessTable.hasRunningProcess_iff.mpr hne
  have hpid : rt.table.runningProcessId = .ok rt.table.running_pid :=
    runningProcessId_eq_ok.mpr ⟨hne, rfl⟩
  have hchecked : ∀ {b : Bool} {e : Str}, b = true →
      (Exec.require b e : Exec Str (Runtime H) Unit) rt = (.ok (), rt) := by
    rintro b e rfl
    rfl
  rw [TimerPreemptiveScheduler.step]
  refine (Exec.bind_of_ok (Exec.get_apply rt)).trans ?_
  refine (Exec.bind_of_ok (hchecked hstarted.preemptive)).trans ?_
  refine (Exec.bind_of_ok (hchecked hstarted.attached)).trans ?_
  refine (Exec.bind_of_ok (hchecked hhas)).trans ?_
  have hlift : (Exec.lift rt.table.runningProcessId : Exec Str (Runtime H) ProcessId) rt
      = (.ok rt.table.running_pid, rt) := by
    rw [Exec.lift_apply, hpid]
  exact Exec.bind_of_ok hlift

/-- A step of the CPU that goes on is followed by the request that it may have left. -/
theorem stepCpu_eq [LongDouble] (pid : ProcessId) (hgoes : ¬ Stopped (stepped rt).cpu) :
    stepCpu pid rt = (servicePendingPreemption >>= fun serviced =>
      (pure (serviced.getD pid) : Exec Str (Runtime H) ProcessId)) (stepped rt) := by
  obtain ⟨hhalted, herror⟩ := not_or.mp hgoes
  have hcontinue : (rt.cpu.step.core.state.hasError || rt.cpu.step.core.state.halted) = false :=
    Bool.or_eq_false_iff.mpr ⟨Bool.eq_false_iff.mpr herror, Bool.eq_false_iff.mpr hhalted⟩
  rw [stepCpu, Exec.bind_apply, Exec.modify_apply]
  dsimp only
  rw [Exec.bind_apply, Exec.get_apply]
  dsimp only
  rw [hcontinue, if_neg Bool.false_ne_true]
  rfl

/-- A step that stops the CPU returns the process that ran. -/
theorem stepCpu_of_stopped [LongDouble] (pid : ProcessId) (hne : rt.table.running_pid ≠ 0)
    (hstopped : Stopped (stepped rt).cpu) :
    stepCpu pid rt = (.ok rt.table.running_pid, stepped rt) := by
  have hpid : (stepped rt).table.runningProcessId = .ok rt.table.running_pid :=
    runningProcessId_eq_ok.mpr ⟨hne, rfl⟩
  have hstop : (rt.cpu.step.core.state.hasError || rt.cpu.step.core.state.halted) = true := by
    rw [Bool.or_eq_true]
    exact hstopped.symm
  rw [stepCpu, Exec.bind_apply, Exec.modify_apply]
  dsimp only
  rw [Exec.bind_apply, Exec.get_apply]
  dsimp only
  rw [hstop, if_pos rfl, Exec.lift_apply]
  exact congrArg (·, stepped rt) hpid

/-- The end of a lifecycle step whose CPU goes on. -/
theorem step_of_goesOn [LongDouble] (hstarted : Started rt) (hrunning : rt.lifecycle.state = .Running)
    (hne : rt.table.running_pid ≠ 0) {pid : ProcessId}
    (hstep : TimerPreemptiveScheduler.step rt = (.ok pid, rt')) (hne' : rt'.table.running_pid ≠ 0)
    (hgoes : ¬ Stopped rt'.cpu) :
    ∃ result, ProcessLifecycleManager.step rt = (.ok result, rt') := by
  have hhas : rt.table.hasRunningProcess = true := ProcessTable.hasRunningProcess_iff.mpr hne
  have hpid : rt'.table.runningProcessId = .ok rt'.table.running_pid :=
    runningProcessId_eq_ok.mpr ⟨hne', rfl⟩
  obtain ⟨hhalted, herror⟩ := not_or.mp hgoes
  simp only [ProcessLifecycleManager.step, Exec.bind_apply, Exec.get_apply, Exec.require_apply,
    hstarted.lifecycle, if_true, ne_eq, hrunning, not_true_eq_false, if_false, hhas, hstep,
    Bool.eq_false_iff.mpr hhalted, Bool.eq_false_iff.mpr herror, Bool.not_false, Bool.and_true,
    Exec.lift_apply, hpid]
  exact ⟨_, rfl⟩

/-- The end of a lifecycle step whose CPU has stopped. -/
theorem step_of_stopped [LongDouble] (hstarted : Started rt)
    (hrunning : rt.lifecycle.state = .Running) (hne : rt.table.running_pid ≠ 0) {pid : ProcessId}
    (hstep : TimerPreemptiveScheduler.step rt = (.ok pid, rt')) (hstopped : Stopped rt'.cpu) :
    ProcessLifecycleManager.step rt = terminateStopped rt' := by
  have hhas : rt.table.hasRunningProcess = true := ProcessTable.hasRunningProcess_iff.mpr hne
  have hstop : (!rt'.cpu.core.state.halted && !rt'.cpu.core.state.hasError) = false := by
    rcases hstopped with hhalted | herror
    · rw [hhalted]
      rfl
    · rw [herror, Bool.not_true, Bool.and_false]
  simp only [ProcessLifecycleManager.step, Exec.bind_apply, Exec.get_apply, Exec.require_apply,
    hstarted.lifecycle, if_true, ne_eq, hrunning, not_true_eq_false, if_false, hhas, hstep, hstop,
    Bool.false_eq_true]

/-- The binary loader takes the executable of the process. -/
def Accepted (images : List ProcessImage) (pid : ProcessId) : Prop :=
  ∀ image, imageAt images pid = some image → Activatable image

/-- A switch from a settled runtime succeeds exactly when what it selects is accepted. -/
theorem Settled.dispatchNext_ok_iff (h : Settled images base rt)
    (hpc : rt.table.running_pid ≠ 0 → atUserCodeEnd rt.cpu = false)
    (hidle : rt.cpu.core.usingKernelInterruptStack = false) {pid : ProcessId}
    (hselects : Selects rt.table rt.scheduler pid) :
    (∃ selected d, dispatchNext ⟨rt.cpu, rt.table, rt.scheduler⟩ = (.ok selected, d))
      ↔ Accepted images pid := by
  have hswitchable := h.switchable hpc hidle
  obtain ⟨image, himage⟩ := exists_image_of_selects h.invariant h.owned hselects
  rw [Kernel.dispatchNext_ok_iff hswitchable hselects himage]
  constructor
  · intro ha image' himage'
    rwa [← Option.some.inj (himage.symm.trans himage')]
  · exact fun haccepted => haccepted image himage

/-- Ending the running process succeeds exactly when the process that follows is accepted. -/
theorem Settled.terminateStopped_ok_iff (h : Settled images base rt)
    (hne : rt.table.running_pid ≠ 0) :
    (∃ result rt', terminateStopped rt = (.ok result, rt'))
      ↔ ∀ pid, SelectsReady rt.table rt.scheduler pid → Accepted images pid := by
  obtain ⟨image, himage, hresident⟩ := h.resident hne
  obtain ⟨staged, hstaged⟩ := terminateRunning_ok h.invariant h.owned hne himage hresident
  obtain ⟨hended, hnone⟩ := h.ended hne hstaged
  have hready := mem_ready_terminateRunning h.invariant hne hstaged
  have hselects := selects_vacated hended.invariant hnone hready rt.scheduler
  have hdispatch : ∀ pid, SelectsReady rt.table rt.scheduler pid →
      ((∃ selected d, dispatchNext ⟨rt.cpu, staged, rt.scheduler⟩ = (.ok selected, d))
        ↔ Accepted images pid) := fun pid hpid =>
    hended.dispatchNext_ok_iff (fun hr => absurd hnone hr) hresident.user.kernel_stack_idle
      ((hselects pid).mpr hpid)
  constructor
  · rintro ⟨result, rt', hrun⟩ pid hpid
    refine (hdispatch pid hpid).mp ?_
    cases terminateStopped_eq_ok h.invariant hrun with
    | @last staged' captured terminated alone =>
      obtain rfl : staged = staged' := Except.ok.inj (hstaged.symm.trans terminated)
      obtain ⟨process, hp, hstate⟩ := Selects.runnable ((hselects pid).mpr hpid) hended.invariant
      refine absurd ?_ (List.not_mem_nil (a := pid))
      rw [← alone, ProcessTable.mem_processIdsInState]
      refine ⟨process, hp, hstate.resolve_right fun hr => ?_⟩
      exact (hended.invariant.entry hp).pid_ne
        ((hended.invariant.running_pid_eq hp hr).symm.trans hnone)
    | @switches staged' next d captured terminated ready dispatched ne =>
      obtain rfl : staged = staged' := Except.ok.inj (hstaged.symm.trans terminated)
      exact ⟨next, d, dispatched⟩
  · intro haccepted
    have hpid : rt.table.runningProcessId = .ok rt.table.running_pid :=
      runningProcessId_eq_ok.mpr ⟨hne, rfl⟩
    have hcapture := captureProcessContextSnapshot_eq hresident.valid hne hresident.setup
      hresident.user
    have hnext : ∃ next rt', dispatchReady staged rt = (.ok next, rt') := by
      rw [dispatchReady, Exec.bind_apply, Exec.get_apply]
      dsimp only
      split_ifs with hempty
      · exact ⟨_, _, rfl⟩
      · -- Some process is Ready, so that one is selected, and it is accepted.
        have hne' : staged.processIdsInState .Ready ≠ [] := fun hnil =>
          hempty (List.isEmpty_iff.mpr hnil)
        obtain ⟨other, hother⟩ := List.exists_mem_of_ne_nil _ hne'
        obtain ⟨process, hp, hstate⟩ := ProcessTable.mem_processIdsInState.mp hother
        obtain ⟨pid, hpid⟩ := exists_selects hended.invariant rt.scheduler ⟨process, hp, .inl hstate⟩
        have hpid' := (hselects pid).mp hpid
        obtain ⟨selected, d, hd⟩ := (hdispatch pid hpid').mpr (haccepted pid hpid')
        rw [hd, Exec.bind_apply, Exec.lift_apply]
        exact ⟨_, _, rfl⟩
    obtain ⟨next, rt', hnext⟩ := hnext
    simp only [terminateStopped, Exec.bind_apply, Exec.get_apply, Exec.lift_apply, hpid, hcapture,
      hstaged, hnext, Exec.modify_apply, Exec.pure_apply]
    exact ⟨_, _, rfl⟩

/-- A step of the lifecycle that does not strand its process returns exactly when the process that
it switches to is accepted. -/
theorem Settled.step_ok_iff [LongDouble] (h : Settled images base rt) (hstarted : Started rt)
    (hrunning : rt.lifecycle.state = .Running) (hne : rt.table.running_pid ≠ 0)
    (hstepped : ¬ Due rt → Settled images base (stepped rt)) :
    (∃ result after, ProcessLifecycleManager.step rt = (.ok result, after))
      ↔ ∀ pid, SwitchesTo rt pid → Accepted images pid := by
  -- The switch on a request is the same before and after the CPU has stepped.
  have hpreempt : ∀ rt' : Runtime H, Settled images base rt' → rt'.table.running_pid ≠ 0 →
      Due rt' → ∀ pid, Selects rt'.table rt'.scheduler pid →
      ((∃ selected d, dispatchNext ⟨rt'.cpu, rt'.table, rt'.scheduler⟩ = (.ok selected, d))
        ↔ Accepted images pid) := by
    intro rt' hsettled hne' hdue pid hselects
    obtain ⟨image, -, hresident⟩ := hsettled.resident hne'
    exact hsettled.dispatchNext_ok_iff (fun _ => hdue.2) hresident.user.kernel_stack_idle hselects
  have hselected : ∃ pid, Selects rt.table rt.scheduler pid := by
    obtain ⟨process, hp, hstate⟩ := (h.invariant.running rt.table.running_pid).mp ⟨rfl, hne⟩
    exact exists_selects h.invariant rt.scheduler ⟨process, hp, .inr hstate⟩
  constructor
  · rintro ⟨result, after, hrun⟩ pid hswitches
    cases ProcessLifecycleManager.step_eq_ok h.invariant hrunning hrun with
    | @early selected rt' preempts =>
      obtain ⟨d, -, -, hd, -⟩ := preempts.switch
      cases hswitches with
      | early due selects => exact (hpreempt rt h hne due pid selects).mp ⟨selected, d, hd⟩
      | late quiet => exact absurd preempts.due quiet
      | ended quiet => exact absurd preempts.due quiet
    | @late selected rt' quiet goesOn preempts =>
      obtain ⟨d, -, -, hd, -⟩ := preempts.switch
      cases hswitches with
      | early due => exact absurd due quiet
      | late _ _ due selects =>
        exact (hpreempt (stepped rt) (hstepped quiet) hne due pid selects).mp ⟨selected, d, hd⟩
      | ended _ stopped => exact absurd stopped goesOn
    | plain quiet goesOn quiet' =>
      cases hswitches with
      | early due => exact absurd due quiet
      | late _ _ due => exact absurd due quiet'
      | ended _ stopped => exact absurd stopped goesOn
    | terminates quiet stopped terminates =>
      cases hswitches with
      | early due => exact absurd due quiet
      | late _ goesOn => exact absurd stopped goesOn
      | ended _ _ selects =>
        have hstep := timerStep_eq hstarted hne
        rw [Exec.bind_of_ok (servicePendingPreemption_of_quiet quiet)] at hstep
        dsimp only at hstep
        rw [stepCpu_of_stopped _ hne stopped] at hstep
        rw [step_of_stopped hstarted hrunning hne hstep stopped] at hrun
        exact ((hstepped quiet).terminateStopped_ok_iff hne).mp ⟨result, after, hrun⟩ pid selects
  · intro haccepted
    obtain ⟨pid, hselects⟩ := hselected
    have hstep := timerStep_eq hstarted hne
    by_cases hdue : Due rt
    · obtain ⟨selected, d, hd⟩ :=
        (hpreempt rt h hne hdue pid hselects).mpr (haccepted pid (.early hdue hselects))
      obtain ⟨after, hafter⟩ := preempt_ok h.invariant hne hdue hd
      rw [Exec.bind_of_ok (servicePendingPreemption_of_due hdue hafter)] at hstep
      have hpreempts := preempt_eq_ok hdue hafter
      obtain ⟨hsettled, hgoing⟩ := h.preempts hpreempts
      have hne' : after.table.running_pid ≠ 0 := Preempts.running_ne h.invariant hpreempts
      obtain ⟨result, hresult⟩ :=
        step_of_goesOn hstarted hrunning hne hstep hne' (hgoing hne')
      exact ⟨result, after, hresult⟩
    · rw [Exec.bind_of_ok (servicePendingPreemption_of_quiet hdue)] at hstep
      dsimp only at hstep
      have hsettled := hstepped hdue
      by_cases hstopped : Stopped (stepped rt).cpu
      · rw [stepCpu_of_stopped _ hne hstopped] at hstep
        rw [step_of_stopped hstarted hrunning hne hstep hstopped]
        exact (hsettled.terminateStopped_ok_iff hne).mpr fun pid hpid =>
          haccepted pid (.ended hdue hstopped hpid)
      · rw [stepCpu_eq _ hstopped] at hstep
        by_cases hlate : Due (stepped rt)
        · obtain ⟨selected, d, hd⟩ := (hpreempt (stepped rt) hsettled hne hlate pid hselects).mpr
            (haccepted pid (.late hdue hstopped hlate hselects))
          obtain ⟨after, hafter⟩ := preempt_ok hsettled.invariant hne hlate hd
          rw [Exec.bind_of_ok (servicePendingPreemption_of_due hlate hafter)] at hstep
          have hpreempts := preempt_eq_ok hlate hafter
          obtain ⟨-, hgoing⟩ := hsettled.preempts hpreempts
          have hne' : after.table.running_pid ≠ 0 := Preempts.running_ne hsettled.invariant hpreempts
          obtain ⟨result, hresult⟩ :=
            step_of_goesOn hstarted hrunning hne hstep hne' (hgoing hne')
          exact ⟨result, after, hresult⟩
        · rw [Exec.bind_of_ok (servicePendingPreemption_of_quiet hlate)] at hstep
          obtain ⟨result, hresult⟩ :=
            step_of_goesOn hstarted hrunning hne hstep hne hstopped
          exact ⟨result, _, hresult⟩

/-! ## Dead ends -/

/-- A step from `rt` cannot return. -/
inductive DeadEnd [LongDouble] (images : List ProcessImage) (rt : Runtime H) : Prop
  | strands (quiet : ¬ Due rt) (strands : Strands rt.cpu)
  | refused {pid : ProcessId} {image : ProcessImage} (switches : SwitchesTo rt pid)
      (image_eq : imageAt images pid = some image) (refused : ¬ Activatable image)

/-- A step of a process that is not stopped strands it exactly when `Strands` says so. -/
theorem resident_stranded_iff [LongDouble] {options : MultiProcessRunOptions H}
    (hbase : Connected options base) (hadmissible : Admissible options.software_interrupt_handler)
    {cpu : CPU (Board H)} (h : Resident NoVectors base image cpu) (hgoes : ¬ cpu.Stopped) :
    (Strands cpu → cpu.step.core.state.hasError = true)
      ∧ (cpu.step.core.usingKernelInterruptStack = true ↔ Strands cpu) := by
  have hfits := hbase.carries.fits h.valid
  rw [← h.setup] at hfits
  have hhandler : cpu.setup.softwareInterruptHandler = options.software_interrupt_handler := by
    rw [h.setup]
    exact hbase.softwareInterruptHandler
  have hcontroller : cpu.setup.interruptController = some Board.controllerRef := by
    rw [h.setup]
    exact hbase.interruptController
  obtain ⟨hhalted, herror⟩ := not_or.mp hgoes
  have huser : UserRunning (imageConfinement image NoVectors) cpu.core :=
    { h.user with
      not_halted := Bool.eq_false_iff.mpr hhalted
      no_error := Bool.eq_false_iff.mpr herror }
  -- A step that is not a system call does not strand anybody.
  have hcall : cpu.step.core.usingKernelInterruptStack = true → AtSyscall cpu := by
    intro hstack
    rcases hbase.carries.step hadmissible h with hstays | hstranded
    · exact absurd (hstays.user.kernel_stack_idle.symm.trans hstack) nofun
    · exact hstranded.1
  generalize options.software_interrupt_handler = handler at hadmissible hhandler
  cases hadmissible with
  | absent =>
    have hno : ¬ Strands cpu := fun hs => absurd (hhandler ▸ hs.handler) nofun
    refine ⟨fun hs => absurd hs hno, iff_of_false (fun hstack => ?_) hno⟩
    have hnone : (loadedSetup base image).softwareInterruptHandler = none := h.setup ▸ hhandler
    have hfits' := hfits
    rw [h.setup] at hfits'
    have hstays := (CPU.step_confined hfits' hnone h.setup h.user).2
    exact absurd (hstays.kernel_stack_idle.symm.trans hstack) nofun
  | dispatcher filesystem =>
    have hiff := Kernel.stranded_iff hfits huser hhandler hcontroller
    exact ⟨fun hs => (hiff hs.call).1 hs, fun hstack => (hiff (hcall hstack)).2.mp hstack,
      fun hs => (hiff hs.call).2.mpr hs⟩

/-- A step returns exactly when it is no dead end. -/
theorem Settled.step_returns_iff [LongDouble] {options : MultiProcessRunOptions H}
    (hbase : Connected options base) (hadmissible : Admissible options.software_interrupt_handler)
    (h : Settled images base rt) (hstarted : Started rt) (hrunning : rt.lifecycle.state = .Running)
    (hne : rt.table.running_pid ≠ 0) (hstop : rt.cpu.Stopped → ¬ Strands rt.cpu) :
    (∃ result after, ProcessLifecycleManager.step rt = (.ok result, after))
      ↔ ¬ DeadEnd images rt := by
  obtain ⟨image, himage, hresident⟩ := h.resident hne
  by_cases hstrands : ¬ Due rt ∧ Strands rt.cpu
  · -- The step is an error on the Kernel interrupt stack, whose context cannot be captured.
    obtain ⟨hquiet, hstrands⟩ := hstrands
    have hgoes : ¬ rt.cpu.Stopped := fun hstopped => hstop hstopped hstrands
    obtain ⟨herror, hstack⟩ := resident_stranded_iff hbase hadmissible hresident hgoes
    refine iff_of_false ?_ fun hno => hno (.strands hquiet hstrands)
    rintro ⟨result, after, hrun⟩
    have hstopped : Stopped (stepped rt).cpu := .inr (herror hstrands)
    have hcapture : captureProcessContextSnapshot rt.table.running_pid rt.cpu.step
        ≠ .ok (contextOf rt.table.running_pid rt.cpu.step) := by
      rw [captureProcessContextSnapshot, requireContextSwitchableCPU, hstack.mpr hstrands]
      rintro ⟨⟩
    cases ProcessLifecycleManager.step_eq_ok h.invariant hrunning hrun with
    | early preempts => exact hquiet preempts.due
    | late _ goesOn => exact goesOn hstopped
    | plain _ goesOn => exact goesOn hstopped
    | terminates _ _ terminates =>
      cases terminates with
      | last captured => exact hcapture captured
      | switches captured => exact hcapture captured
  · have hstepped : ¬ Due rt → Settled images base (stepped rt) := by
      intro hquiet
      have hstays : Resident NoVectors base image rt.cpu.step := by
        refine (hbase.carries.step hadmissible hresident).resolve_right fun hstranded => ?_
        by_cases hstopped : rt.cpu.Stopped
        · have hstack := hstranded.2.2
          rw [CPU.step_of_stopped hstopped] at hstack
          exact absurd (hresident.user.kernel_stack_idle.symm.trans hstack) Bool.false_ne_true
        · exact hstrands ⟨hquiet,
            (resident_stranded_iff hbase hadmissible hresident hstopped).2.mp hstranded.2.2⟩
      exact ⟨h.invariant, h.owned, hstays.shared, fun _ => ⟨image, himage, hstays⟩⟩
    rw [h.step_ok_iff hstarted hrunning hne hstepped]
    constructor
    · intro haccepted hdead
      cases hdead with
      | strands quiet strands => exact hstrands ⟨quiet, strands⟩
      | @refused pid image switches image_eq refused =>
        exact refused (haccepted pid switches image image_eq)
    · intro hno pid hswitches image himage
      by_contra hrefused
      exact hno (.refused hswitches himage hrefused)

/-! ## Isolation -/

/-- What a step from `rt` that leaves `table` does to the processes: an instruction that fails ends
the process that has executed it with a fault, a process that does not run is not affected. -/
structure Isolated [LongDouble] (rt : Runtime H) (table : ProcessTable) : Prop where
  others : ∀ pid, pid ≠ rt.table.running_pid → rt.table.Runnable pid → table.Runnable pid
  fault : ¬ Due rt → rt.cpu.step.core.state.hasError = true →
    ∃ process, table.processes.find? rt.table.running_pid = some process
      ∧ process.state = .Terminated ∧ process.terminationKind = .CpuFault
      ∧ process.exitCode = rt.lifecycle.fault_exit_code
      ∧ process.terminationMessage = rt.cpu.step.core.state.errorMessage
  only : ∀ pid process, table.processes.find? pid = some process → process.state = .Terminated →
    rt.table.processes.find? pid = some process
      ∨ pid = rt.table.running_pid ∧ ¬ Due rt ∧ Stopped rt.cpu.step

/-- Every step that returns isolates the processes from each other. -/
theorem isolated_of_step [LongDouble] (hinv : rt.table.Invariant) (hne : rt.table.running_pid ≠ 0)
    {result : ProcessLifecycleStepResult} (h : LifecycleStep rt result rt') :
    Isolated rt rt'.table := by
  have hsteppedInv : (stepped rt).table.Invariant := hinv
  have hpreempts : ∀ (rt' : Runtime H) {selected : ProcessId} {d : Dispatch (Board H)},
      rt'.table = rt.table → dispatchNext ⟨rt'.cpu, rt'.table, rt'.scheduler⟩ = (.ok selected, d) →
      (∀ pid, rt.table.Runnable pid → d.table.Runnable pid)
        ∧ ∀ pid process, d.table.processes.find? pid = some process → process.state = .Terminated →
          rt.table.processes.find? pid = some process := by
    intro rt' selected d htable hd
    rw [← htable] at hinv ⊢
    have hends := endsAtMost_dispatchNext (d := ⟨rt'.cpu, rt'.table, rt'.scheduler⟩) hinv hd
    refine ⟨fun pid => runnable_of_dispatchNext (d := ⟨rt'.cpu, rt'.table, rt'.scheduler⟩) hinv hd,
      fun pid process hp ht => (hends.fresh pid process hp ht).resolve_right nofun⟩
  cases h with
  | early preempts =>
    have hdue := preempts.due
    obtain ⟨d, -, -, hd, -, rfl⟩ := preempts.switch
    obtain ⟨hrunnable, hfresh⟩ := hpreempts rt rfl hd
    exact ⟨fun pid _ => hrunnable pid, fun hquiet => absurd hdue hquiet,
      fun pid process hp ht => .inl (hfresh pid process hp ht)⟩
  | late quiet goesOn preempts =>
    obtain ⟨d, -, -, hd, -, rfl⟩ := preempts.switch
    obtain ⟨hrunnable, hfresh⟩ := hpreempts (stepped rt) rfl hd
    exact ⟨fun pid _ => hrunnable pid, fun _ herror => absurd (.inr herror) goesOn,
      fun pid process hp ht => .inl (hfresh pid process hp ht)⟩
  | plain quiet goesOn =>
    exact ⟨fun _ _ h => h, fun _ herror => absurd (.inr herror) goesOn, fun _ _ hp _ => .inl hp⟩
  | terminates quiet stopped terminates =>
    -- Ending the process replaces its entry, and the switch that may follow keeps it.
    have hstaged : ∀ {staged : ProcessTable} {context : ProcessContext},
        terminateRunning (stepped rt) rt.table.running_pid context = .ok staged →
        Isolated rt staged := by
      intro staged context hterminated
      obtain ⟨old, exitCode, kind, message, -, hends, -, -, hfind⟩ :=
        terminateRunning_spec hsteppedInv hne hterminated
      refine ⟨fun pid hpid hrunnable => ?_, fun _ herror => ?_, fun pid process hp ht => ?_⟩
      · obtain ⟨process, hp, hstate⟩ := hrunnable
        exact ⟨process, (hfind pid).trans ((if_neg hpid).trans hp), hstate⟩
      · obtain ⟨hcode, hkind, hmessage⟩ := hends.fault herror
        exact ⟨_, (hfind _).trans (if_pos rfl), rfl, hkind, hcode, hmessage⟩
      · rw [hfind] at hp
        split_ifs at hp with hpid
        · exact .inr ⟨hpid, quiet, stopped⟩
        · exact .inl hp
    cases terminates with
    | last captured terminated => exact hstaged terminated
    | @switches staged next d captured terminated ready dispatched =>
      obtain ⟨hothers, hfault, honly⟩ := hstaged terminated
      have hinv' := (terminateRunning_spec hsteppedInv hne terminated).choose_spec
      obtain ⟨_, _, _, -, -, hstagedInv, -, -⟩ := hinv'
      have hends := endsAtMost_dispatchNext (d := ⟨(stepped rt).cpu, staged, rt.scheduler⟩)
        hstagedInv dispatched
      refine ⟨fun pid hpid hrunnable => ?_, fun hquiet herror => ?_, fun pid process hp ht => ?_⟩
      · exact runnable_of_dispatchNext (d := ⟨(stepped rt).cpu, staged, rt.scheduler⟩) hstagedInv
          dispatched (hothers pid hpid hrunnable)
      · obtain ⟨process, hp, hstate, hrest⟩ := hfault hquiet herror
        exact ⟨process, hends.kept _ process hp hstate, hstate, hrest⟩
      · exact honly pid process ((hends.fresh pid process hp ht).resolve_right nofun) ht

end Steps

end ZeroCpu.Sys
