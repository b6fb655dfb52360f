import ZeroCpu.Kernel.LiveState
import ZeroCpu.Kernel.Residency

/-!
# Switches that cannot fail

Reference: `src/kernel/ProcessDispatcher.cpp`, `src/kernel/TimerPreemptiveScheduler.cpp`,
`src/kernel/ProcessLifecycleManager.cpp`.

Every check on the way of a context switch, a preemption and a termination looks at what the process
confinement keeps, so none of them fails on a process that is where it belongs. The one check that
looks at something else is the binary loader's: it takes the executable of the process selected next
exactly when the image is activatable.
-/

namespace ZeroCpu.Kernel

open Library

variable {W : Type} {worldOk : W → Prop} {imageAt : ProcessId → Option ProcessImage} {base : Setup W}

/-! ## Saving -/

/-- A process that has not terminated takes a context and a memory in which it could go on. -/
theorem replaceRuntimeState_ok {image : ProcessImage} {process : ProcessControlBlock}
    {context : ProcessContext} {memory : Memory} (howned : Owned image process)
    (hlive : process.state ≠ .Terminated) (hpid : context.pid = process.context.pid)
    (hc : SavedContext image context) (hpc : context.pc < 512 + image.executable.code.length)
    (hm : SavedMemory image memory) :
    ∃ process', process.replaceRuntimeState context memory = .ok process' := by
  have hspace : { process.addressSpace with memory := memory } = spaceOf image memory := by
    rw [howned.space]
    rfl
  have hvalid := validate_spaceOf howned.valid hm
  simp only [ProcessControlBlock.replaceRuntimeState, reject_of_not hlive,
    hc.validate_ok howned.valid hpc, reject_of_not (not_not.mpr hpid), ok_bind,
    ProcessAddressSpace.replaceMemory, hspace, hvalid]
  exact ⟨_, rfl⟩

/-- The same for the state in which it ends, which may be behind its code. -/
theorem replaceFinalState_ok {image : ProcessImage} {process : ProcessControlBlock}
    {context : ProcessContext} {memory : Memory} (howned : Owned image process)
    (hlive : process.state ≠ .Terminated) (hpid : context.pid = process.context.pid)
    (hc : SavedContext image context) (hm : SavedMemory image memory) :
    ∃ process', process.replaceFinalState context memory = .ok process'
      ∧ process'.state = process.state := by
  have hspace : { process.addressSpace with memory := memory } = spaceOf image memory := by
    rw [howned.space]
    rfl
  have hvalid := validate_spaceOf howned.valid hm
  simp only [ProcessControlBlock.replaceFinalState, reject_of_not hlive,
    hc.snapshot_ok howned.valid, reject_of_not (not_not.mpr hpid), ok_bind,
    ProcessAddressSpace.replaceMemory, hspace, hvalid]
  exact ⟨_, rfl, rfl⟩

/-- Saving the running process succeeds. -/
theorem saveRunning_ok {d : Dispatch W} (hinv : d.table.Invariant)
    (howned : AllOwned imageAt d.table)
    (hrunning : RunningResident worldOk imageAt base d.table d.cpu) :
    ∃ saved, saveRunning d = (.ok (), saved) := by
  rw [saveRunning, Exec.bind_apply, Exec.get_apply]
  dsimp only
  split_ifs with hrun
  · have hne := ProcessTable.hasRunningProcess_iff.mp hrun
    obtain ⟨process, hp, hstate⟩ := (hinv.running d.table.running_pid).mp ⟨rfl, hne⟩
    have hlive : process.state ≠ .Terminated := by
      rw [hstate]
      rintro ⟨⟩
    obtain ⟨image, himage, hresident, hpc⟩ := hrunning hne
    obtain ⟨image', himage', hprocess⟩ := howned _ process hp hlive
    obtain rfl : image = image' := Option.some.inj (himage.symm.trans himage')
    have hcontext := savedContext_contextOf hne hresident.setup hresident.user
    obtain ⟨process', hreplace⟩ := replaceRuntimeState_ok hprocess hlive
      (hinv.entry hp).pid_eq.symm hcontext hpc (savedMemory_of_userContext hresident.user)
    have hpid : d.table.runningProcessId = .ok d.table.running_pid := by
      rw [ProcessTable.runningProcessId, reject_of_not (not_not.mpr hrun)]
      rfl
    have hcapture := captureProcessContext_eq hresident.valid hne hresident.setup hresident.user hpc
    simp only [hpid, hcapture, ProcessTable.updateRuntimeState, ProcessTable.process_eq_ok.mpr hp,
      ok_bind, hreplace, Exec.bind_apply, Exec.lift_apply, Exec.modify_apply]
    exact ⟨_, rfl⟩
  · exact ⟨d, rfl⟩

/-! ## Selecting -/

/-- A saved process is in the state it was in. -/
theorem savedFrom_state (cpu : CPU W) (pid : ProcessId) (process : ProcessControlBlock) :
    (savedFrom cpu pid process).state = process.state := by
  rw [savedFrom]
  split_ifs <;> rfl

/-- Two tables in which the same processes run. -/
theorem running_pid_congr {table table' : ProcessTable} (hinv : table.Invariant)
    (hinv' : table'.Invariant)
    (h : ∀ pid, (∃ process, table'.processes.find? pid = some process ∧ process.state = .Running)
      ↔ ∃ process, table.processes.find? pid = some process ∧ process.state = .Running) :
    table'.running_pid = table.running_pid := by
  have hsame : ∀ pid, table'.running_pid = pid ∧ pid ≠ 0 ↔ table.running_pid = pid ∧ pid ≠ 0 :=
    fun pid => (hinv'.running pid).trans ((h pid).trans (hinv.running pid).symm)
  by_cases hzero : table.running_pid = 0
  · by_contra hne
    obtain ⟨heq, hne'⟩ := (hsame table'.running_pid).mp ⟨rfl, fun h => hne (h.trans hzero.symm)⟩
    exact hne' (heq.symm.trans hzero)
  · exact ((hsame table.running_pid).mpr ⟨rfl, hzero⟩).1

namespace RoundRobinScheduler

/-- `pid` is the process that a selection takes. -/
def Selects (table : ProcessTable) (scheduler : RoundRobinScheduler) (pid : ProcessId) : Prop :=
  ∃ rest, Cyclic.rotateAfter (candidates table) (scheduler.cursor? table) = pid :: rest

/-- At most one process is selected. -/
theorem Selects.unique {table : ProcessTable} {scheduler : RoundRobinScheduler}
    {pid pid' : ProcessId} (h : Selects table scheduler pid) (h' : Selects table scheduler pid') :
    pid = pid' := by
  obtain ⟨rest, hrotate⟩ := h
  obtain ⟨rest', hrotate'⟩ := h'
  exact (List.cons.inj (hrotate.symm.trans hrotate')).1

/-- The process selected is runnable. -/
theorem Selects.runnable {table : ProcessTable} {scheduler : RoundRobinScheduler} {pid : ProcessId}
    (h : Selects table scheduler pid) (hinv : table.Invariant) : table.Runnable pid := by
  obtain ⟨rest, hrotate⟩ := h
  refine ((candidates_spec hinv).2 pid).mp ?_
  refine (Cyclic.rotateAfter_perm _ (scheduler.cursor? table)).mem_iff.mp ?_
  rw [hrotate]
  exact List.mem_cons_self

/-- Where a process is runnable, one is selected. -/
theorem exists_selects {table : ProcessTable} (hinv : table.Invariant)
    (scheduler : RoundRobinScheduler) {pid : ProcessId} (h : table.Runnable pid) :
    ∃ selected, Selects table scheduler selected := by
  have hmem : pid ∈ Cyclic.rotateAfter (candidates table) (scheduler.cursor? table) :=
    (Cyclic.rotateAfter_perm _ _).mem_iff.mpr (((candidates_spec hinv).2 pid).mpr h)
  obtain ⟨selected, rest, hrotate⟩ := List.exists_cons_of_ne_nil (List.ne_nil_of_mem hmem)
  exact ⟨selected, rest, hrotate⟩

/-- A selection depends on the states of the processes only. -/
theorem selects_congr {table table' : ProcessTable} (hinv : table.Invariant)
    (hinv' : table'.Invariant) (hrunning : table'.running_pid = table.running_pid)
    (h : ∀ pid, table'.Runnable pid ↔ table.Runnable pid) (scheduler : RoundRobinScheduler)
    (pid : ProcessId) : Selects table' scheduler pid ↔ Selects table scheduler pid := by
  have hcandidates : candidates table' = candidates table := by
    have hspec := candidates_spec hinv
    have hspec' := candidates_spec hinv'
    exact hspec'.1.eq_of_mem_iff hspec.1 fun pid =>
      (hspec'.2 pid).trans ((h pid).trans (hspec.2 pid).symm)
  have hcursor : scheduler.cursor? table' = scheduler.cursor? table := by
    have hhas : table'.hasRunningProcess = table.hasRunningProcess := by
      rw [ProcessTable.hasRunningProcess, hrunning, ProcessTable.hasRunningProcess]
    rw [cursor?, cursor, hhas, hrunning, cursor?, cursor]
  rw [Selects, Selects, hcandidates, hcursor]

end RoundRobinScheduler

open RoundRobinScheduler

/-- Saving does not change what is selected. -/
theorem selects_saved {d saved : Dispatch W} (hinv : d.table.Invariant)
    (h : saveRunning d = (.ok (), saved)) (pid : ProcessId) :
    Selects saved.table saved.scheduler pid ↔ Selects d.table d.scheduler pid := by
  obtain ⟨-, hscheduler, hinv', hfind⟩ := saveRunning_spec hinv h
  have hstates : ∀ (p : ProcessState → Prop) pid,
      (∃ process, saved.table.processes.find? pid = some process ∧ p process.state)
        ↔ ∃ process, d.table.processes.find? pid = some process ∧ p process.state := by
    intro p pid
    rw [hfind]
    cases d.table.processes.find? pid with
    | none => simp
    | some process => simp [savedFrom_state]
  rw [hscheduler]
  exact selects_congr hinv hinv' (running_pid_congr hinv hinv' (hstates (· = .Running)))
    (hstates fun state => state = .Ready ∨ state = .Running) d.scheduler pid

/-- While nothing runs, a selection takes a process that is Ready. -/
def SelectsReady (table : ProcessTable) (scheduler : RoundRobinScheduler) (pid : ProcessId) : Prop :=
  ∃ rest, Cyclic.rotateAfter (table.processIdsInState .Ready)
    (if scheduler.has_last_selection then some scheduler.last_selected_pid else none) = pid :: rest

/-- Once the running process has ended, the selection is one of the others. -/
theorem selects_vacated {table staged : ProcessTable} (hinv : staged.Invariant)
    (hnone : staged.running_pid = 0)
    (hready : ∀ pid, pid ∈ staged.processIdsInState .Ready ↔ pid ∈ table.processIdsInState .Ready)
    (scheduler : RoundRobinScheduler) (pid : ProcessId) :
    Selects staged scheduler pid ↔ SelectsReady table scheduler pid := by
  have hvacant : staged.hasRunningProcess = false :=
    Bool.eq_false_iff.mpr fun h => ProcessTable.hasRunningProcess_iff.mp h hnone
  have hcandidates : candidates staged = table.processIdsInState .Ready := by
    have hsorted : (table.processIdsInState .Ready).Pairwise (· < ·) :=
      table.processes.keys_sorted.sublist (ProcessTable.processIdsInState_sublist .Ready)
    have hspec := candidates_spec hinv
    refine hspec.1.eq_of_mem_iff hsorted fun pid => (hspec.2 pid).trans ?_
    rw [← mem_collected hinv, collected, hvacant, if_neg Bool.false_ne_true]
    exact hready pid
  rw [Selects, SelectsReady, hcandidates, cursor?, cursor, hvacant, Bool.and_false,
    if_neg Bool.false_ne_true]

/-! ## The switch -/

/-- The running process can be taken off the CPU, and every process that can still run is one of its
image. -/
structure Switchable (worldOk : W → Prop) (imageAt : ProcessId → Option ProcessImage)
    (base : Setup W) (d : Dispatch W) : Prop where
  invariant : d.table.Invariant
  owned : AllOwned imageAt d.table
  shared : Shared worldOk base d.cpu
  running : RunningResident worldOk imageAt base d.table d.cpu
  idle : d.cpu.core.usingKernelInterruptStack = false

/-- A switch succeeds exactly when the image of the process it selects is activatable. -/
theorem dispatchNext_ok_iff {d : Dispatch W} {pid : ProcessId} {image : ProcessImage}
    (h : Switchable worldOk imageAt base d) (hselects : Selects d.table d.scheduler pid)
    (himage : imageAt pid = some image) :
    (∃ selected d', dispatchNext d = (.ok selected, d')) ↔ Activatable image := by
  obtain ⟨hinv, howned, hshared, hrunning, hidle⟩ := h
  obtain ⟨saved, hsaved⟩ := saveRunning_ok hinv howned hrunning
  obtain ⟨hcpu, -, hinvSaved, hfindSaved⟩ := saveRunning_spec hinv hsaved
  obtain ⟨rest, hrotate⟩ := (selects_saved hinv hsaved pid).mpr hselects
  obtain ⟨table', hschedule, hover⟩ := scheduleNext_eq hinvSaved hrotate
  -- The selected process is one of its image, before and after it is saved.
  obtain ⟨process, hprocess, hselected⟩ : ∃ process, table'.processes.find? pid = some process
      ∧ Owned image process := by
    have hrunnable : saved.table.Runnable pid := Selects.runnable ⟨rest, hrotate⟩ hinvSaved
    obtain ⟨candidate, hcandidate, hstate⟩ := hrunnable
    rw [hfindSaved] at hcandidate
    obtain ⟨old, hold, rfl⟩ := Option.map_eq_some_iff.mp hcandidate
    rw [savedFrom_state] at hstate
    have hlive : old.state ≠ .Terminated := by
      rintro ht
      rw [ht] at hstate
      rcases hstate with hstate | hstate <;> cases hstate
    obtain ⟨image', himage', howner⟩ := owned_savedFrom hinv howned hrunning hold hlive
    obtain rfl : image = image' := Option.some.inj (himage.symm.trans himage')
    refine ⟨_, (hover.find pid).trans ?_, owned_handedOver howner pid pid⟩
    rw [hfindSaved, hold]
    rfl
  have hrunnable : hasRunnableProcess d.table = true := by
    have hcollected := (mem_collected hinv).mpr (hselects.runnable hinv)
    rw [hasRunnableProcess, Bool.or_eq_true]
    rw [collected] at hcollected
    split_ifs at hcollected with hrun
    · exact .inl hrun
    · refine .inr ?_
      rw [Bool.not_eq_true', List.isEmpty_eq_false_iff]
      exact List.ne_nil_of_mem hcollected
  set resumed : Dispatch W := { saved with table := table', scheduler := ⟨true, pid⟩ } with hresumed
  have hrun : ∀ out d', resume process resumed = (out, d') →
      dispatchNext d = (out.map fun _ => pid, if out.isOk then d' else d) := by
    intro out d' hresume
    have hzoom : Exec.zoom Dispatch.schedulingRef scheduleNext saved = (.ok pid, resumed) := by
      rw [Exec.zoom_apply]
      simp only [Dispatch.schedulingRef, hschedule]
      rfl
    have hfound : resumed.table.process pid = .ok process := ProcessTable.process_eq_ok.mpr hprocess
    simp only [dispatchNext, Exec.bind_apply, Exec.get_apply, Exec.require_apply, hidle, hrunnable,
      Bool.not_false, if_true, Exec.staged, hsaved, hzoom, Exec.lift_apply, hfound, hresume]
    cases out <;> rfl
  have hsize : resumed.cpu.core.state.memory.size = 4096 := by
    show saved.cpu.core.state.memory.size = 4096
    rw [hcpu, hshared.size]
  constructor
  · rintro ⟨selected, d', hdispatch⟩
    by_contra ha
    obtain ⟨e, herror⟩ := resume_error hselected.valid ha hselected.space resumed
    rw [hrun _ _ (Prod.ext herror rfl)] at hdispatch
    cases (Prod.ext_iff.mp hdispatch).1
  · intro ha
    rw [hrun _ _ (resume_eq hselected.valid ha hselected.space hselected.memory hselected.context
      hselected.pc_lt hsize)]
    exact ⟨pid, _, rfl⟩

/-- A selected process is one of its image. -/
theorem exists_image_of_selects {table : ProcessTable} {scheduler : RoundRobinScheduler}
    {pid : ProcessId} (hinv : table.Invariant) (howned : AllOwned imageAt table)
    (h : Selects table scheduler pid) : ∃ image, imageAt pid = some image := by
  obtain ⟨process, hp, hstate⟩ := h.runnable hinv
  have hlive : process.state ≠ .Terminated := by
    rintro ht
    rw [ht] at hstate
    rcases hstate with hstate | hstate <;> cases hstate
  obtain ⟨image, himage, -⟩ := howned pid process hp hlive
  exact ⟨image, himage⟩

/-- A switch leaves every runnable process runnable. -/
theorem runnable_of_dispatchNext {d d' : Dispatch W} {selected pid : ProcessId}
    (hinv : d.table.Invariant) (h : dispatchNext d = (.ok selected, d'))
    (hrunnable : d.table.Runnable pid) : d'.table.Runnable pid := by
  obtain ⟨-, -, -, -, hfind⟩ := find?_of_dispatchNext hinv h
  obtain ⟨process, hp, hstate⟩ := hrunnable
  refine ⟨_, (hfind pid).trans (congrArg _ hp), ?_⟩
  rw [← savedFrom_state d.cpu pid process] at hstate
  rw [Function.comp_apply, handedOver]
  split_ifs with hpid hrun
  · exact .inr rfl
  · exact .inl rfl
  · exact hstate

/-! ## Termination -/

section Termination

variable {H : Type} {worldOk : Board H → Prop} {base : Setup (Board H)} {rt : Runtime H}

open ProcessLifecycleManager

/-- Ending the running process inside the confinement succeeds. -/
theorem terminateRunning_ok (hinv : rt.table.Invariant) (howned : AllOwned imageAt rt.table)
    (hne : rt.table.running_pid ≠ 0) {image : ProcessImage}
    (himage : imageAt rt.table.running_pid = some image)
    (hresident : Resident worldOk base image rt.cpu) :
    ∃ staged, terminateRunning rt rt.table.running_pid (contextOf rt.table.running_pid rt.cpu)
      = .ok staged := by
  obtain ⟨process, hp, hstate⟩ := (hinv.running rt.table.running_pid).mp ⟨rfl, hne⟩
  have hlive : process.state ≠ .Terminated := by
    rw [hstate]
    exact nofun
  obtain ⟨image', himage', hprocess⟩ := howned _ process hp hlive
  obtain rfl : image = image' := Option.some.inj (himage.symm.trans himage')
  obtain ⟨final, hfinal, hsame⟩ := replaceFinalState_ok hprocess hlive (hinv.entry hp).pid_eq.symm
    (savedContext_contextOf hne hresident.setup hresident.user)
    (savedMemory_of_userContext hresident.user)
  obtain ⟨exitCode, kind, message, heq⟩ := terminateRunning_eq rt rt.table.running_pid
    (contextOf rt.table.running_pid rt.cpu)
  have hrunning : final.state = .Running := hsame.trans hstate
  have hends : ∃ staged, final.terminate exitCode kind message = .ok staged := by
    simp only [ProcessControlBlock.terminate, hrunning, reject]
    exact ⟨_, rfl⟩
  obtain ⟨staged, hstaged⟩ := hends
  simp only [heq, ProcessTable.finish, ProcessTable.process_eq_ok.mpr hp, ok_bind, hfinal, hstaged]
  exact ⟨_, rfl⟩

/-- The others are as they were. -/
theorem mem_ready_terminateRunning {staged : ProcessTable} {context : ProcessContext}
    (hinv : rt.table.Invariant) (hne : rt.table.running_pid ≠ 0)
    (h : terminateRunning rt rt.table.running_pid context = .ok staged) (pid : ProcessId) :
    pid ∈ staged.processIdsInState .Ready ↔ pid ∈ rt.table.processIdsInState .Ready := by
  obtain ⟨process, _, _, _, hp, -, -, -, hfind⟩ := terminateRunning_spec hinv hne h
  obtain ⟨running, hrunning, hstate⟩ := (hinv.running rt.table.running_pid).mp ⟨rfl, hne⟩
  rw [ProcessTable.mem_processIdsInState, ProcessTable.mem_processIdsInState, hfind]
  split_ifs with hpid
  · -- The process that ends was Running before and is Terminated after.
    subst hpid
    refine iff_of_false ?_ ?_
    · rintro ⟨final, hfinal, hready⟩
      obtain rfl := Option.some.inj hfinal
      cases hready
    · rintro ⟨other, hother, hready⟩
      obtain rfl := Option.some.inj (hrunning.symm.trans hother)
      cases hstate.symm.trans hready
  · rfl

end Termination

end ZeroCpu.Kernel
