import ZeroCpu.Kernel.Confinement
import ZeroCpu.Kernel.LifecycleStep
import ZeroCpu.System.Runner

/-!
# Rounds of the runner

Reference: `src/system/MultiProcessRunner.cpp`, `runImages`.

Every property of a whole run is proved the same way: it holds once `boot` has returned, and every
round of the loop keeps it. This file says what `boot` leaves behind and what a round can do.
-/

namespace ZeroCpu.Sys

open Library Kernel

variable {H : Type}

namespace MultiProcessRunner

/-! ## The processes of the images -/

/-- The process that `createProcess` makes of an image. -/
def processOf (pid : ProcessId) (image : ProcessImage) : ProcessControlBlock where
  context := initialContext pid image
  addressSpace := spaceOf image image.memory
  state := .Ready
  hasExitCode := false
  exitCode := 0
  terminationKind := .NormalExit
  terminationMessage := []

/-- The table holds the processes of the images, numbered from one, and no other process. -/
structure Created (images : List ProcessImage) (table : ProcessTable) : Prop where
  invariant : table.Invariant
  next : table.next_pid ≠ 0 → table.next_pid = images.length + 1
  running : table.running_pid = 0
  keys : table.processes.keys = List.range' 1 images.length
  find : ∀ pid process, table.processes.find? pid = some process →
    ∃ image, images[pid - 1]? = some image ∧ process = processOf pid image

/-- A process that is created gets the next number. -/
theorem createProcess_eq_ok {table table' : ProcessTable} {image : ProcessImage} {pid : ProcessId}
    (h : table.createProcess image = .ok (pid, table')) :
    table.next_pid = pid ∧ pid ≠ 0 ∧ table.processes.find? pid = none
      ∧ table' = { table with
        processes := table.processes.emplace pid (processOf pid image)
        next_pid := if pid = processIdMax then 0 else pid + 1 } := by
  simp only [ProcessTable.createProcess, bind_eq_ok] at h
  obtain ⟨next, hnext, context, hcontext, space, hspace, process, hmake, _, hfresh, h⟩ := h
  obtain ⟨hnext, hne⟩ := requireNextProcessId_eq_ok hnext
  obtain ⟨rfl, rfl⟩ := Prod.ext_iff.mp (Except.ok.inj h)
  obtain ⟨-, rfl⟩ := make_eq_ok hmake
  obtain rfl : initialContext next image = context := by
    simp only [contextFromImage, bind_eq_ok] at hcontext
    obtain ⟨_, -, _, -, hcontext⟩ := hcontext
    exact Except.ok.inj hcontext
  obtain rfl : spaceOf image image.memory = space := by
    simp only [ProcessAddressSpace.ofImage, bind_eq_ok] at hspace
    obtain ⟨_, -, _, -, hspace⟩ := hspace
    exact Except.ok.inj hspace
  refine ⟨hnext, hne, ?_, rfl⟩
  exact Option.not_isSome_iff_eq_none.mp (reject_eq_ok.mp hfresh)

/-- One more image is one more process. -/
theorem Created.createProcess {images : List ProcessImage} {table table' : ProcessTable}
    {image : ProcessImage} {pid : ProcessId} (h : Created images table)
    (hcreate : table.createProcess image = .ok (pid, table')) :
    Created (images ++ [image]) table' := by
  have hchange : TableChange table (some pid) table' := by
    have happly : TableCall.apply table (.createProcess image : TableCall Unit)
        = .ok (some pid, table') := by
      rw [TableCall.apply, hcreate]
      rfl
    exact TableCall.apply_change h.invariant happly
  have hkeys := TableCall.keys_change h.invariant hchange
  obtain ⟨hnext, hne, hfresh, rfl⟩ := createProcess_eq_ok hcreate
  -- PIDs are given out in order from 1.
  obtain rfl : pid = images.length + 1 := by
    rw [← hnext]
    exact h.next (hnext ▸ hne)
  refine ⟨h.invariant.change hchange, fun hne' => ?_, h.running, ?_, fun other process hother => ?_⟩
  · dsimp only at hne' ⊢
    split_ifs at hne' ⊢ with hmax
    · exact absurd rfl hne'
    · rw [List.length_append, List.length_singleton]
  · rw [hkeys, h.keys, List.length_append, List.length_singleton, List.range'_1_concat]
    rw [Nat.add_comm]
    rfl
  · rw [table.processes.find?_emplace (processOf (images.length + 1) image) hfresh other] at hother
    split_ifs at hother with heq
    · obtain rfl := Option.some.inj hother
      rw [heq]
      exact ⟨image, by simp, rfl⟩
    · obtain ⟨image', himage', rfl⟩ := h.find other process hother
      refine ⟨image', ?_, rfl⟩
      rw [List.getElem?_append_left ((List.getElem?_eq_some_iff.mp himage').1)]
      exact himage'

/-- The table that `runImages` makes of its images. -/
theorem createProcesses_spec {done images : List ProcessImage} {table table' : ProcessTable}
    (h : Created done table) (hcreate : createProcesses table images = .ok table') :
    Created (done ++ images) table' ∧ ∀ image ∈ images, validateProcessImage image = .ok () := by
  induction images generalizing done table with
  | nil =>
    obtain rfl := Except.ok.inj hcreate
    rw [List.append_nil]
    exact ⟨h, fun _ himage => absurd himage List.not_mem_nil⟩
  | cons image rest ih =>
    simp only [createProcesses, bind_eq_ok] at hcreate
    obtain ⟨⟨⟩, hvalid, ⟨pid, next⟩, hnext, hrest⟩ := hcreate
    obtain ⟨hcreated, hvalid'⟩ := ih (h.createProcess hnext) hrest
    rw [List.append_assoc, List.singleton_append] at hcreated
    refine ⟨hcreated, fun other hother => ?_⟩
    rcases List.mem_cons.mp hother with rfl | hother
    · exact hvalid
    · exact hvalid' other hother

/-- Without images there are no processes. -/
theorem created_nil : Created [] ProcessTable.empty where
  invariant := .empty
  next _ := rfl
  running := rfl
  keys := rfl
  find _ _ h := nomatch h

/-- With at least one image there is a process to run. -/
theorem Created.hasRunnable {images : List ProcessImage} {table : ProcessTable}
    (h : Created images table) (hne : images ≠ []) :
    RoundRobinScheduler.hasRunnableProcess table = true := by
  have hfirst : 1 ∈ table.processes.keys := by
    rw [h.keys, List.mem_range'_1]
    exact ⟨le_rfl, by have := List.length_pos_of_ne_nil hne; omega⟩
  obtain ⟨process, hprocess⟩ := Option.isSome_iff_exists.mp ((SortedMap.mem_keys_iff _ _).mp hfirst)
  obtain ⟨image, -, rfl⟩ := h.find 1 process hprocess
  have hready : 1 ∈ table.processIdsInState .Ready :=
    ProcessTable.mem_processIdsInState.mpr ⟨_, hprocess, rfl⟩
  have hne' : (table.processIdsInState .Ready).isEmpty = false :=
    List.isEmpty_eq_false_iff_exists_mem.mpr ⟨1, hready⟩
  rw [RoundRobinScheduler.hasRunnableProcess, hne', Bool.not_false, Bool.or_true]

/-! ## Boot -/

/-- The runtime's CPU with the timer and the controller attached. -/
def attachedCpu (host : H) (options : MultiProcessRunOptions H) (timer : TimerDevice)
    (table : ProcessTable) : CPU (Board H) :=
  let cpu := (newRuntime host options timer table).cpu
  { cpu with setup := { cpu.setup with
    interruptController := some Board.controllerRef
    clockedDevices := [TimerDevice.clocked Board.timerRef] } }

/-- What `boot` leaves behind. -/
structure Booted (host : H) (images : List ProcessImage) (options : MultiProcessRunOptions H)
    (s : RunState H) : Prop where
  valid : ∀ image ∈ images, validateProcessImage image = .ok ()
  nonempty : images ≠ []
  started : ∃ table timer selected d, Created images table
    ∧ TimerDevice.make options.timer_vector options.quantum options.timer_payload = .ok timer
    ∧ dispatchNext ⟨attachedCpu host options timer table, table, .initial⟩ = (.ok selected, d)
    ∧ s = {
      runtime := {
        cpu := d.cpu
        table := d.table
        scheduler := d.scheduler
        preemptive := ⟨true, true, 0, 0⟩
        lifecycle :=
          { normal_exit_code := options.normal_exit_code
            fault_exit_code := options.fault_exit_code
            started := true
            state := .Running
            termination_count := 0
            fault_count := 0 } }
      runtimeState := .Running
      lifecycleSteps := 0
      executionTrace := []
      softwareInterrupts := []
      contextSwitches := [] }

/-- What a boot has done when it returns. -/
theorem boot_eq_ok {host : H} {images : List ProcessImage} {options : MultiProcessRunOptions H}
    {s : RunState H} (h : boot host images options = .ok s) : Booted host images options s := by
  simp only [boot, bind_eq_ok] at h
  obtain ⟨_, -, _, hne, table, htable, timer, htimer, h⟩ := h
  obtain ⟨hcreated, hvalid⟩ := createProcesses_spec created_nil htable
  rw [List.nil_append] at hcreated
  have hne := reject_eq_ok.mp hne
  refine ⟨hvalid, hne, table, timer, ?_⟩
  -- `start` finds a runnable process, attaches the timer and makes the first switch.
  rcases hstart : ProcessLifecycleManager.start (newRuntime host options timer table) with
    ⟨e | runtimeState, runtime⟩
  · rw [hstart] at h
    cases h
  rw [hstart] at h
  obtain rfl := Except.ok.inj h
  have hrunnable : RoundRobinScheduler.hasRunnableProcess
      (newRuntime host options timer table).table = true := hcreated.hasRunnable hne
  rw [ProcessLifecycleManager.start, Exec.get_bind_eq_ok, Exec.require_bind_eq_ok, hrunnable,
    Bool.not_true, if_neg Bool.false_ne_true] at hstart
  obtain ⟨-, hstart⟩ := hstart
  rw [Exec.bind_eq_ok] at hstart
  obtain ⟨selected, started, hstarted, hstart⟩ := hstart
  rw [Exec.modify_bind_eq_ok] at hstart
  obtain ⟨rfl, rfl⟩ := Exec.pure_eq_ok.mp hstart
  rw [TimerPreemptiveScheduler.start, Exec.get_bind_eq_ok, Exec.require_bind_eq_ok] at hstarted
  obtain ⟨-, hstarted⟩ := hstarted
  rw [Exec.bind_eq_ok] at hstarted
  obtain ⟨_, attached, hattach, hstarted⟩ := hstarted
  have hdetached : (newRuntime host options timer table).preemptive.attached ≠ true :=
    Bool.false_ne_true
  rw [TimerPreemptiveScheduler.attach, Exec.get_bind_eq_ok, if_neg hdetached,
    Exec.require_bind_eq_ok] at hattach
  obtain ⟨-, hattach⟩ := hattach
  obtain rfl := Exec.modify_eq_ok.mp hattach
  rw [Exec.bind_eq_ok] at hstarted
  obtain ⟨pid, _, hdispatch, hstarted⟩ := hstarted
  obtain ⟨d, hd, rfl⟩ := Exec.zoom_eq_ok.mp hdispatch
  rw [Exec.modify_bind_eq_ok] at hstarted
  obtain ⟨rfl, rfl⟩ := Exec.pure_eq_ok.mp hstarted
  exact ⟨pid, d, hcreated, htimer, hd, rfl⟩

/-! ## Rounds -/

/-- The runtime a round steps from: a process at the end of its code has been halted. -/
inductive Prepared (rt : Runtime H) : Runtime H → Prop
  | running (inside : reachedExecutableEnd rt = .ok false) : Prepared rt rt
  | completed (atEnd : reachedExecutableEnd rt = .ok true) :
      Prepared rt { discardCompletionTimerRequest rt with
        cpu := ProcessLifecycleManager.haltCpu (discardCompletionTimerRequest rt).cpu }

/-- What a round of the loop can do. -/
structure Round [LongDouble] (s s' : RunState H) : Prop where
  running : s.runtime.table.running_pid ≠ 0
  stepped : ∃ rt result after, Prepared s.runtime rt
    ∧ ProcessLifecycleManager.LifecycleStep rt result after
    ∧ s' = record s s.runtime after s.runtime.table.running_pid result

/-- What the check for the end of the code has done when it returns. -/
theorem completeAtEnd_eq_ok {rt rt' : Runtime H} (h : completeAtEnd rt = .ok rt') :
    Prepared rt rt' := by
  simp only [completeAtEnd, bind_eq_ok] at h
  obtain ⟨atEnd, hatEnd, h⟩ := h
  cases atEnd with
  | true =>
    obtain rfl := Except.ok.inj h
    exact .completed hatEnd
  | false =>
    obtain rfl := Except.ok.inj h
    exact .running hatEnd

/-- A prepared runtime is what the check returns. -/
theorem Prepared.completeAtEnd {rt rt' : Runtime H} (h : Prepared rt rt') :
    MultiProcessRunner.completeAtEnd rt = .ok rt' := by
  cases h with
  | running inside =>
    rw [MultiProcessRunner.completeAtEnd, inside]
    rfl
  | completed atEnd =>
    rw [MultiProcessRunner.completeAtEnd, atEnd]
    rfl

theorem Prepared.table {rt rt' : Runtime H} (h : Prepared rt rt') : rt'.table = rt.table := by
  cases h <;> rfl

theorem Prepared.lifecycle {rt rt' : Runtime H} (h : Prepared rt rt') :
    rt'.lifecycle = rt.lifecycle := by
  cases h <;> rfl

/-- What a round has done when it returns. -/
theorem iterate_eq_ok [LongDouble] {s s' : RunState H} (hinv : s.runtime.table.Invariant)
    (hrunning : s.runtime.lifecycle.state = .Running) (h : iterate s = .ok s') : Round s s' := by
  simp only [iterate, bind_eq_ok] at h
  obtain ⟨_, hrun, pid, hpid, rt, hrt, h⟩ := h
  obtain ⟨hne, rfl⟩ := TimerPreemptiveScheduler.runningProcessId_eq_ok.mp hpid
  have hprepared := completeAtEnd_eq_ok hrt
  rcases hstep : ProcessLifecycleManager.step rt with ⟨e | result, after⟩
  · rw [hstep] at h
    cases h
  · rw [hstep] at h
    obtain rfl := Except.ok.inj h
    refine ⟨hne, rt, result, after, hprepared, ?_, rfl⟩
    refine ProcessLifecycleManager.step_eq_ok ?_ ?_ hstep
    · rwa [hprepared.table]
    · rwa [hprepared.lifecycle]

/-- The invariant rule for whole runs. -/
theorem runLoop_induct [LongDouble] {P : RunState H → Prop}
    (hround : ∀ s s', P s → s.runtimeState = .Running → iterate s = .ok s' → P s')
    {rounds : ℕ} {s s' : RunState H} (hs : P s) (h : runLoop rounds s = .ok s') : P s' := by
  induction rounds generalizing s with
  | zero =>
    obtain rfl := Except.ok.inj h
    exact hs
  | succ rounds ih =>
    rw [runLoop] at h
    split_ifs at h with hstopped
    · obtain rfl := Except.ok.inj h
      exact hs
    · obtain ⟨next, hnext, hrest⟩ := bind_eq_ok.mp h
      exact ih (hround s next hs (not_not.mp hstopped) hnext) hrest

/-- One more iteration behind a loop that has run out of rounds. -/
theorem runLoop_concat [LongDouble] {rounds : ℕ} {first s s' : RunState H}
    (h : runLoop rounds first = .ok s) (hrunning : s.runtimeState = .Running)
    (hiterate : iterate s = .ok s') : runLoop (rounds + 1) first = .ok s' := by
  induction rounds generalizing first with
  | zero =>
    obtain rfl := Except.ok.inj h
    rw [runLoop, if_neg (not_not.mpr hrunning), hiterate]
    rfl
  | succ rounds ih =>
    rw [runLoop] at h ⊢
    split_ifs at h with hstopped
    · obtain rfl := Except.ok.inj h
      exact absurd hrunning hstopped
    · obtain ⟨next, hnext, hrest⟩ := bind_eq_ok.mp h
      rw [if_neg hstopped, hnext]
      exact ih hrest

/-- The step limit is for the loop alone. -/
theorem boot_limit {host : H} {images : List ProcessImage} {options : MultiProcessRunOptions H}
    {limit : BitVec 64} {s s' : RunState H} (h : boot host images options = .ok s)
    (h' : boot host images { options with max_lifecycle_steps := limit } = .ok s') : s = s' := by
  simp only [boot, bind_eq_ok] at h h'
  obtain ⟨_, -, _, -, table, htable, timer, htimer, h⟩ := h
  obtain ⟨_, -, _, -, table', htable', timer', htimer', h'⟩ := h'
  obtain rfl := Except.ok.inj (htable.symm.trans htable')
  obtain rfl := Except.ok.inj (htimer.symm.trans htimer')
  exact Except.ok.inj (h.symm.trans h')

/-- Discarding leaves no request of the timer behind. -/
theorem hasPendingFrom_discardRequests (vector : UInt8) {n : ℕ} {controller : InterruptController}
    (h : controller.pending.length ≤ n) :
    (discardRequests vector n controller).hasPendingFrom vector
      TimerPreemptiveScheduler.kTimerSource = false := by
  induction n generalizing controller with
  | zero =>
    have hnil : controller.pending = [] := List.length_eq_zero_iff.mp (Nat.le_zero.mp h)
    rw [discardRequests, InterruptController.hasPendingFrom, InterruptController.findDeliverableFrom,
      hnil]
    split_ifs <;> rfl
  | succ n ih =>
    rw [discardRequests, InterruptController.acknowledgeFrom]
    cases hfind : controller.findDeliverableFrom vector TimerPreemptiveScheduler.kTimerSource with
    | none => exact congrArg Option.isSome hfind
    | some request =>
      -- The request found is in the queue, so that acknowledging it makes the queue shorter.
      rw [InterruptController.findDeliverableFrom] at hfind
      split_ifs at hfind
      obtain ⟨hmatch, hmem⟩ := And.intro (List.find?_some hfind) (List.mem_of_find?_eq_some hfind)
      have hlength := List.length_eraseP_of_mem hmem hmatch
      refine ih ?_
      show (controller.pending.eraseP _).length ≤ n
      omega

/-- A process that is about to be completed is not about to be switched out. -/
theorem not_due_completed (rt : Runtime H) :
    ¬ TimerPreemptiveScheduler.Due { discardCompletionTimerRequest rt with
      cpu := ProcessLifecycleManager.haltCpu (discardCompletionTimerRequest rt).cpu } := by
  rintro ⟨hpending, -⟩
  exact absurd ((hasPendingFrom_discardRequests _ le_rfl).symm.trans hpending) nofun

/-! ## The result -/

/-- A summary has the number of its process. -/
theorem makeSummary_pid {pid : ProcessId} {process : ProcessControlBlock} {cpu : CPU (Board H)}
    {isRunning : Bool} {summary : ProcessRunSummary}
    (h : makeSummary pid process cpu isRunning = .ok summary) : summary.pid = pid := by
  obtain ⟨context, -, h⟩ := bind_eq_ok.mp h
  obtain rfl := Except.ok.inj h
  rfl

/-- There is one summary for each process, of that process. -/
theorem makeSummaries_eq_ok {rt : Runtime H} {pids : List ProcessId}
    {summaries : List ProcessRunSummary} (h : makeSummaries rt pids = .ok summaries) :
    summaries.map ProcessRunSummary.pid = pids
      ∧ ∀ summary ∈ summaries, ∃ process, rt.table.processes.find? summary.pid = some process
        ∧ makeSummary summary.pid process rt.cpu
          (rt.table.hasRunningProcess && rt.table.running_pid == summary.pid) = .ok summary := by
  induction pids generalizing summaries with
  | nil =>
    obtain rfl := Except.ok.inj h
    exact ⟨rfl, fun _ hsummary => absurd hsummary List.not_mem_nil⟩
  | cons pid rest ih =>
    simp only [makeSummaries, bind_eq_ok] at h
    obtain ⟨process, hprocess, summary, hsummary, summaries', hrest, h⟩ := h
    obtain rfl := Except.ok.inj h
    obtain ⟨hpids, hall⟩ := ih hrest
    have hpid := makeSummary_pid hsummary
    refine ⟨by rw [List.map_cons, hpids, hpid], fun other hother => ?_⟩
    rcases List.mem_cons.mp hother with rfl | hother
    · rw [hpid]
      exact ⟨process, ProcessTable.process_eq_ok.mp hprocess, hsummary⟩
    · exact hall other hother

/-- In the table, the process under `running_pid` is the one that runs. -/
theorem isRunning_iff {table : ProcessTable} {pid : ProcessId} {process : ProcessControlBlock}
    (hinv : table.Invariant) (hp : table.processes.find? pid = some process) :
    (table.hasRunningProcess && table.running_pid == pid) = true ↔ process.state = .Running := by
  rw [Bool.and_eq_true, ProcessTable.hasRunningProcess_iff, beq_iff_eq]
  constructor
  · rintro ⟨hne, rfl⟩
    obtain ⟨process', hp', hstate⟩ := (hinv.running table.running_pid).mp ⟨rfl, hne⟩
    rw [hp] at hp'
    exact Option.some.inj hp' ▸ hstate
  · intro hstate
    obtain ⟨rfl, hne⟩ := (hinv.running pid).mpr ⟨process, hp, hstate⟩
    exact ⟨hne, rfl⟩

end MultiProcessRunner

end ZeroCpu.Sys
