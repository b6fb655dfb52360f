import ZeroCpu.Kernel.LifecycleStep
import ZeroCpu.Trace.Recorded

/-!
# The state of a process

A process that runs is in the state of the CPU, any other in the state that is stored in the table.
Switches, saves and restores do not change the state of any process in this sense: only a CPU step
does, and only of the process that runs.
-/

namespace ZeroCpu.Kernel

open Library

variable {W H : Type}

/-- The state that a stored process goes on in. -/
def ProcessControlBlock.storedState (process : ProcessControlBlock) : CPUState where
  registers := process.context.registers
  memory := process.addressSpace.memory
  flags := ⟨process.context.flags⟩
  privilegeLevel := process.context.privilege
  pc := process.context.pc
  sp := process.context.sp
  halted := false
  hasError := false
  errorMessage := []

/-- The state that a process is in. -/
def liveState (cpu : CPU W) (process : ProcessControlBlock) : CPUState :=
  if process.state = .Running then cpu.core.state else process.storedState

theorem liveState_of_running {cpu : CPU W} {process : ProcessControlBlock}
    (h : process.state = .Running) : liveState cpu process = cpu.core.state := if_pos h

theorem liveState_of_idle {cpu : CPU W} {process : ProcessControlBlock}
    (h : process.state ≠ .Running) : liveState cpu process = process.storedState := if_neg h

/-- A state that has not stopped, and has no message of an error. -/
structure GoesOn (state : CPUState) : Prop where
  not_halted : state.halted = false
  no_error : state.hasError = false
  no_message : state.errorMessage = []

theorem goesOn_storedState (process : ProcessControlBlock) : GoesOn process.storedState :=
  ⟨rfl, rfl, rfl⟩

/-! ## Saving and restoring -/

/-- Saving a process that goes on loses nothing of its state. -/
theorem storedState_savedFrom {cpu : CPU W} (pid : ProcessId) (process : ProcessControlBlock)
    (h : process.state = .Running → GoesOn cpu.core.state) :
    (savedFrom cpu pid process).storedState = liveState cpu process := by
  by_cases hstate : process.state = .Running
  · obtain ⟨hhalted, herror, hmessage⟩ := h hstate
    rw [savedFrom, if_pos hstate, liveState, if_pos hstate, ProcessControlBlock.storedState]
    rcases hcpu : cpu.core.state with ⟨_, _, _, _, _, _, _, _, _⟩
    rw [hcpu] at hhalted herror hmessage
    subst hhalted herror hmessage
    simp only [contextOf, hcpu]
  · rw [savedFrom, if_neg hstate, liveState, if_neg hstate]

/-- Restoring a context sets the state that it says. -/
theorem restoreProcessContext_state {context : ProcessContext} {cpu cpu' : CPU W} {u : Unit}
    (h : restoreProcessContext context cpu = (.ok u, cpu')) :
    cpu'.core.state = restoreState context cpu.core.state := by
  simp only [restoreProcessContext, ↓Exec.get_bind_eq_ok, ↓Exec.lift_bind_eq_ok] at h
  obtain ⟨_, -, _, -, h⟩ := h
  cases hrange : context.has_user_code_range with
  | true =>
    simp only [hrange, if_true, CPU.setUserCodeRange, CPU.setKernelStackPointer, bind_assoc,
      ↓Exec.get_bind_eq_ok, ↓Exec.lift_bind_eq_ok, ↓Exec.modify_bind_eq_ok,
      ↓Exec.require_bind_eq_ok, Exec.modify_eq_ok] at h
    obtain ⟨_, -, -, _, -, rfl⟩ := h
    rfl
  | false =>
    simp only [hrange, Bool.false_eq_true, if_false, CPU.clearUserCodeRange,
      CPU.setKernelStackPointer, bind_assoc, ↓Exec.get_bind_eq_ok, ↓Exec.lift_bind_eq_ok,
      ↓Exec.modify_bind_eq_ok, ↓Exec.require_bind_eq_ok, Exec.modify_eq_ok] at h
    obtain ⟨-, _, -, rfl⟩ := h
    rfl

/-- Resuming a process puts its stored state on the CPU. -/
theorem resume_state {selected : ProcessControlBlock} {d d' : Dispatch W} {u : Unit}
    (h : resume selected d = (.ok u, d')) : d'.cpu.core.state = selected.storedState := by
  simp only [resume, Exec.bind_eq_ok, Exec.zoom_eq_ok, Exec.get_apply, Exec.lift_eq_ok] at h
  obtain ⟨_, _, ⟨loaded, hload, rfl⟩, _, _, hget, _, _, ⟨-, rfl⟩, restored, hrestore, rfl⟩ := h
  obtain ⟨-, rfl⟩ := Prod.ext_iff.mp hget
  obtain ⟨-, hmemory⟩ := activate_spec hload
  refine (restoreProcessContext_state hrestore).trans ?_
  show restoreState selected.context loaded.core.state = selected.storedState
  rw [restoreState, ProcessControlBlock.storedState, hmemory]

/-! ## Switches -/

/-- Handing over the CPU changes no stored state. -/
theorem handedOver_storedState (selected pid : ProcessId) (process : ProcessControlBlock) :
    (handedOver selected pid process).storedState = process.storedState := by
  rw [handedOver]
  split_ifs <;> rfl

/-- A switch changes the state of no process, and the process selected for the CPU is on it. -/
structure KeepsLive (d d' : Dispatch W) : Prop where
  live : ∀ pid process', d'.table.processes.find? pid = some process' →
    ∃ process, d.table.processes.find? pid = some process
      ∧ liveState d'.cpu process' = liveState d.cpu process
      ∧ (process'.state = .Terminated ↔ process.state = .Terminated)
  goesOn : GoesOn d'.cpu.core.state
  running : d'.table.running_pid ≠ 0
  invariant : d'.table.Invariant
  keys : d'.table.processes.keys = d.table.processes.keys
  connections : SameConnections d.cpu d'.cpu

/-- A context switch changes no live state. -/
theorem keepsLive_dispatchNext {d d' : Dispatch W} {selected : ProcessId}
    (hinv : d.table.Invariant) (hgoes : d.table.running_pid ≠ 0 → GoesOn d.cpu.core.state)
    (h : dispatchNext d = (.ok selected, d')) : KeepsLive d d' := by
  obtain ⟨hinv', hrunning, -, hsame, hfind⟩ := find?_of_dispatchNext hinv h
  obtain ⟨saved, s, process, hsaved, hschedule, hprocess, hresume⟩ := dispatchNext_eq_ok h
  obtain ⟨-, -, hinvSaved, hfindSaved⟩ := saveRunning_spec hinv hsaved
  obtain ⟨hrunnable, hover⟩ := scheduleNext_spec hinvSaved hschedule
  have hstate := resume_state hresume
  have htable : d'.table = s.1 := (resume_spec hresume).2.2
  have hkeys : d'.table.processes.keys = d.table.processes.keys :=
    SortedMap.keys_congr fun pid => by rw [hfind, Option.isSome_map]
  refine ⟨fun pid process' hp => ?_, hstate ▸ goesOn_storedState process, ?_, hinv', hkeys, hsame⟩
  · have hp' := hp
    rw [hfind] at hp
    obtain ⟨old, hold, rfl⟩ := Option.map_eq_some_iff.mp hp
    have hstored : (handedOver selected pid (savedFrom d.cpu pid old)).storedState
        = liveState d.cpu old := by
      rw [handedOver_storedState]
      refine storedState_savedFrom pid old fun hr => hgoes ?_
      exact (((hinv.running pid).mpr ⟨old, hold, hr⟩).1).symm ▸ (hinv.entry hold).pid_ne
    have hterminated : (savedFrom d.cpu pid old).state = old.state := by
      rw [savedFrom]
      split_ifs <;> rfl
    refine ⟨old, hold, ?_, ?_⟩
    · rw [← hstored, liveState]
      split_ifs with hr
      · have hselected : selected = pid := hrunning.symm.trans (hinv'.running_pid_eq hp' hr)
        subst hselected
        rw [htable, hprocess] at hp'
        obtain rfl := Option.some.inj hp'
        exact hstate
      · rfl
    · show (handedOver selected pid (savedFrom d.cpu pid old)).state = .Terminated ↔ _
      rw [handedOver]
      split_ifs with heq hr
      · -- Only a process that can run is selected.
        subst heq
        obtain ⟨candidate, hcandidate, hready⟩ := hrunnable
        rw [hfindSaved, hold] at hcandidate
        obtain rfl := Option.some.inj hcandidate
        rw [hterminated] at hready
        constructor
        · rintro ⟨⟩
        · intro ht
          rw [ht] at hready
          rcases hready with hready | hready <;> cases hready
      · rw [hterminated] at hr
        rw [hr]
        exact iff_of_false id ProcessState.noConfusion
      · rw [hterminated]
  · rw [hrunning]
    rw [← htable] at hprocess
    exact (hinv'.entry hprocess).pid_ne

/-! ## Termination -/

/-- A process once it has terminated in a final context and memory. -/
def finished (process : ProcessControlBlock) (context : ProcessContext) (memory : Memory)
    (exitCode : Word) (kind : ProcessTerminationKind) (message : Str) : ProcessControlBlock where
  context := context
  addressSpace := { process.addressSpace with memory := memory }
  state := .Terminated
  hasExitCode := true
  exitCode := exitCode
  terminationKind := kind
  terminationMessage := message

/-- A process that is finished is stored as it ended, and no other changes. -/
theorem finish_eq_ok {table table' : ProcessTable} {pid : ProcessId} {context : ProcessContext}
    {memory : Memory} {exitCode : Word} {kind : ProcessTerminationKind} {message : Str}
    (h : table.finish pid context memory exitCode kind message = .ok table') :
    ∃ process, table.processes.find? pid = some process
      ∧ table'.running_pid = (if process.state = .Running then 0 else table.running_pid)
      ∧ ∀ other, table'.processes.find? other
        = if other = pid then some (finished process context memory exitCode kind message)
          else table.processes.find? other := by
  simp only [ProcessTable.finish, ProcessControlBlock.replaceFinalState,
    ProcessAddressSpace.replaceMemory, bind_eq_ok] at h
  obtain ⟨process, hp, final, ⟨_, -, _, -, _, -, space, ⟨_, -, hspace⟩, hfinal⟩, staged, hstaged,
    htable⟩ := h
  obtain rfl := Except.ok.inj hspace
  obtain rfl := Except.ok.inj hfinal
  obtain ⟨-, rfl⟩ := terminate_eq_ok hstaged
  obtain rfl := Except.ok.inj htable
  have hfound := ProcessTable.process_eq_ok.mp hp
  exact ⟨process, hfound, rfl, fun other => ProcessTable.Invariant.find?_setProcess hfound _ other⟩

namespace ProcessLifecycleManager

open TimerPreemptiveScheduler

/-- The way the running process of a stopped CPU ends. -/
structure Ends (rt : Runtime H) (exitCode : Word) (kind : ProcessTerminationKind) (message : Str) :
    Prop where
  fault : rt.cpu.core.state.hasError = true → exitCode = rt.lifecycle.fault_exit_code
    ∧ kind = .CpuFault ∧ message = rt.cpu.core.state.errorMessage
  normal : rt.cpu.core.state.hasError = false →
    exitCode = rt.cpu.core.processExitRequest.getD rt.lifecycle.normal_exit_code
      ∧ kind = .NormalExit ∧ message = []

/-- The running process is finished with what is on the CPU. -/
theorem terminateRunning_spec {rt : Runtime H} {staged : ProcessTable} {context : ProcessContext}
    (hinv : rt.table.Invariant) (hne : rt.table.running_pid ≠ 0)
    (h : terminateRunning rt rt.table.running_pid context = .ok staged) :
    ∃ process exitCode kind message, rt.table.processes.find? rt.table.running_pid = some process
      ∧ Ends rt exitCode kind message
      ∧ staged.Invariant ∧ staged.running_pid = 0
      ∧ ∀ pid, staged.processes.find? pid = if pid = rt.table.running_pid then
          some (finished process context rt.cpu.core.state.memory exitCode kind message)
        else rt.table.processes.find? pid := by
  obtain ⟨exitCode, kind, message, hends, hfinish⟩ : ∃ exitCode kind message,
      Ends rt exitCode kind message
        ∧ rt.table.finish rt.table.running_pid context rt.cpu.core.state.memory exitCode kind message
          = .ok staged := by
    rw [terminateRunning] at h
    split_ifs at h with herror
    · have hends : rt.cpu.core.state.hasError ≠ false := by
        rw [herror]
        rintro ⟨⟩
      exact ⟨_, _, _, ⟨fun _ => ⟨rfl, rfl, rfl⟩, fun hno => absurd hno hends⟩, h⟩
    · exact ⟨_, _, _, ⟨fun hyes => absurd hyes herror, fun _ => ⟨rfl, rfl, rfl⟩⟩, h⟩
  obtain ⟨process, hp, hrunning, hfind⟩ := finish_eq_ok hfinish
  obtain ⟨process', hp', hstate⟩ := (hinv.running rt.table.running_pid).mp ⟨rfl, hne⟩
  obtain rfl := Option.some.inj (hp.symm.trans hp')
  rw [if_pos hstate] at hrunning
  exact ⟨process, exitCode, kind, message, hp, hends, hinv.finish hfinish, hrunning, hfind⟩

/-! ## Steps -/

/-- What a step of the lifecycle does to the state of every process, once the CPU has moved on from
that of `rt` to `moved`. -/
structure LiveStep (rt : Runtime H) (moved : CPU (Board H)) (after : Runtime H) : Prop where
  invariant : after.table.Invariant
  keys : after.table.processes.keys = rt.table.processes.keys
  live : ∀ pid process', after.table.processes.find? pid = some process' →
    ∃ process, rt.table.processes.find? pid = some process
      ∧ (liveState after.cpu process').view = (liveState moved process).view
      ∧ (process'.state ≠ .Terminated →
        process.state ≠ .Terminated ∧ liveState after.cpu process' = liveState moved process)
  running : after.lifecycle.state = .Running → after.table.running_pid ≠ 0
  goesOn : after.table.running_pid ≠ 0 → GoesOn after.cpu.core.state
  trace : after.cpu.trace = moved.trace
  handler : after.cpu.setup.softwareInterruptHandler = moved.setup.softwareInterruptHandler

/-- After a step every process that has not terminated goes on. -/
theorem LiveStep.goesOn_liveState {rt after : Runtime H} {moved : CPU (Board H)}
    (h : LiveStep rt moved after) {pid : ProcessId} {process : ProcessControlBlock}
    (hp : after.table.processes.find? pid = some process) : GoesOn (liveState after.cpu process) := by
  rw [liveState]
  split_ifs with hr
  · refine h.goesOn ?_
    rw [h.invariant.running_pid_eq hp hr]
    exact (h.invariant.entry hp).pid_ne
  · exact goesOn_storedState process

/-- A preemption changes no live state. -/
theorem liveStep_of_preempts {rt rt' : Runtime H} {selected : ProcessId}
    (hinv : rt.table.Invariant) (hgoes : GoesOn rt.cpu.core.state)
    (h : Preempts rt selected rt') : LiveStep rt rt.cpu rt' := by
  obtain ⟨d, request, controller, hd, -, rfl⟩ := h.switch
  have hkeeps := keepsLive_dispatchNext hinv (fun _ => hgoes) hd
  refine ⟨hkeeps.invariant, hkeeps.keys, fun pid process' hp => ?_, fun _ => hkeeps.running,
    fun _ => hkeeps.goesOn, hkeeps.connections.trace, hkeeps.connections.softwareInterruptHandler⟩
  obtain ⟨process, hprocess, hlive, hterminated⟩ := hkeeps.live pid process' hp
  exact ⟨process, hprocess, congrArg CPUState.view hlive,
    fun hlive' => ⟨fun ht => hlive' (hterminated.mpr ht), hlive⟩⟩

/-- Terminating the running process stores the state it is in and leaves the others alone. -/
theorem live_of_terminateRunning {rt : Runtime H} {staged : ProcessTable}
    (hinv : rt.table.Invariant) (hne : rt.table.running_pid ≠ 0)
    (h : terminateRunning rt rt.table.running_pid (contextOf rt.table.running_pid rt.cpu)
      = .ok staged) {pid : ProcessId} {process' : ProcessControlBlock}
    (hp : staged.processes.find? pid = some process') :
    process'.state ≠ .Running
    ∧ ∃ process, rt.table.processes.find? pid = some process
      ∧ process'.storedState.view = (liveState rt.cpu process).view
      ∧ (process'.state ≠ .Terminated →
        process.state ≠ .Terminated ∧ process'.storedState = liveState rt.cpu process) := by
  obtain ⟨old, exitCode, kind, message, hold, -, hstaged, hnone, hfind⟩ :=
    terminateRunning_spec hinv hne h
  have hidle : process'.state ≠ .Running := fun hr => by
    have := ((hstaged.running pid).mpr ⟨process', hp, hr⟩)
    exact this.2 (this.1.symm.trans hnone)
  refine ⟨hidle, ?_⟩
  rw [hfind] at hp
  split_ifs at hp with hpid
  · obtain rfl := Option.some.inj hp
    obtain ⟨process, hprocess, hstate⟩ := (hinv.running rt.table.running_pid).mp ⟨rfl, hne⟩
    refine ⟨process, hpid ▸ hprocess, ?_, fun hlive => absurd rfl hlive⟩
    rw [liveState, if_pos hstate]
    rfl
  · have hlive : liveState rt.cpu process' = process'.storedState := if_neg hidle
    exact ⟨process', hp, by rw [hlive], fun hl => ⟨hl, hlive.symm⟩⟩

/-- Ending a process keeps it in the table. -/
theorem keys_of_terminateRunning {rt : Runtime H} {staged : ProcessTable} {context : ProcessContext}
    (hinv : rt.table.Invariant) (hne : rt.table.running_pid ≠ 0)
    (h : terminateRunning rt rt.table.running_pid context = .ok staged) :
    staged.processes.keys = rt.table.processes.keys := by
  obtain ⟨old, _, _, _, hold, -, -, -, hfind⟩ := terminateRunning_spec hinv hne h
  refine SortedMap.keys_congr fun pid => ?_
  rw [hfind]
  split_ifs with hpid
  · rw [hpid, hold, Option.isSome_some, Option.isSome_some]
  · rfl

/-- Without a running process the runtime is not running. -/
theorem classifyWithoutRunning_ne (table : ProcessTable) :
    classifyWithoutRunning table ≠ .Running := by
  rw [classifyWithoutRunning]
  split_ifs <;> exact nofun

/-- Clearing an exit request leaves the state alone. -/
theorem clearExit_state (stopped cpu : CPU (Board H)) :
    (clearExit stopped cpu).core.state = cpu.core.state := by
  rw [clearExit]
  split_ifs <;> rfl

theorem clearExit_trace (stopped cpu : CPU (Board H)) : (clearExit stopped cpu).trace = cpu.trace := by
  rw [clearExit]
  split_ifs <;> rfl

theorem clearExit_setup (stopped cpu : CPU (Board H)) : (clearExit stopped cpu).setup = cpu.setup := by
  rw [clearExit]
  split_ifs <;> rfl

/-- Ending a process changes no other live state. -/
theorem liveStep_of_terminates {rt rt' : Runtime H} {result : ProcessLifecycleStepResult}
    (hinv : rt.table.Invariant) (hne : rt.table.running_pid ≠ 0)
    (h : Terminates rt result rt') : LiveStep rt rt.cpu rt' := by
  cases h with
  | @last staged captured terminated alone =>
    obtain ⟨-, -, -, -, -, -, hstaged, hnone, -⟩ := terminateRunning_spec hinv hne terminated
    refine ⟨hstaged, keys_of_terminateRunning hinv hne terminated, fun pid process' hp => ?_, fun hr => absurd hr (classifyWithoutRunning_ne _),
      fun hr => absurd hnone hr, clearExit_trace rt.cpu rt.cpu, congrArg _ (clearExit_setup rt.cpu rt.cpu)⟩
    obtain ⟨hidle, process, hprocess, hview, hlive⟩ := live_of_terminateRunning hinv hne terminated hp
    refine ⟨process, hprocess, ?_, ?_⟩
    · rwa [liveState, if_neg hidle]
    · rwa [liveState, if_neg hidle]
  | @switches staged next d captured terminated ready dispatched ne =>
    obtain ⟨-, -, -, -, -, -, hstaged, hnone, -⟩ := terminateRunning_spec hinv hne terminated
    have hkeeps := keepsLive_dispatchNext (d := ⟨rt.cpu, staged, rt.scheduler⟩) hstaged
      (fun hr => absurd hnone hr) dispatched
    refine ⟨hkeeps.invariant, hkeeps.keys.trans (keys_of_terminateRunning hinv hne terminated),
      fun pid process' hp => ?_, fun _ => hkeeps.running, fun _ => ?_,
      (clearExit_trace rt.cpu d.cpu).trans hkeeps.connections.trace,
      (congrArg _ (clearExit_setup rt.cpu d.cpu)).trans hkeeps.connections.softwareInterruptHandler⟩
    · obtain ⟨process'', hprocess'', hlive', hterminated⟩ := hkeeps.live pid process' hp
      obtain ⟨hidle, process, hprocess, hview, hlive⟩ :=
        live_of_terminateRunning hinv hne terminated hprocess''
      have hsame : liveState (clearExit rt.cpu d.cpu) process' = process''.storedState := by
        have hidle' : liveState rt.cpu process'' = process''.storedState := if_neg hidle
        rw [← hidle', ← hlive', liveState, liveState, clearExit_state]
      refine ⟨process, hprocess, ?_, fun hl => ?_⟩
      · rw [hsame, hview]
      · rw [hsame]
        exact hlive fun ht => hl (hterminated.mpr ht)
    · rw [clearExit_state]
      exact hkeeps.goesOn

/-- The CPU after a step that has not stopped it. -/
theorem goesOn_step [LongDouble] {cpu : CPU W} (hm : cpu.setup.Recorded)
    (hmessage : cpu.core.state.hasError = false → cpu.core.state.errorMessage = [])
    (h : ¬ Stopped cpu.step) : GoesOn cpu.step.core.state := by
  obtain ⟨hhalted, herror⟩ := not_or.mp h
  have herror := Bool.eq_false_iff.mpr herror
  refine ⟨Bool.eq_false_iff.mpr hhalted, herror, ?_⟩
  rcases CPU.step_trace hm hmessage with ⟨-, hstep⟩ | ⟨-, -, -, -, -, hunrecorded⟩
  · rw [hstep] at herror ⊢
    exact hmessage herror
  · exact hunrecorded.message herror

/-- Every step of the lifecycle moves the CPU at most once, and changes the state of a process only
by that. -/
theorem liveStep_of_step [LongDouble] {rt after : Runtime H} {result : ProcessLifecycleStepResult}
    (hinv : rt.table.Invariant) (hne : rt.table.running_pid ≠ 0) (hm : rt.cpu.setup.Recorded)
    (hmessage : rt.cpu.core.state.hasError = false → rt.cpu.core.state.errorMessage = [])
    (hgoes : Due rt → GoesOn rt.cpu.core.state) (h : LifecycleStep rt result after) :
    ∃ moved, (Due rt ∧ moved = rt.cpu ∨ ¬ Due rt ∧ moved = rt.cpu.step) ∧ LiveStep rt moved after := by
  have hinv' : (stepped rt).table.Invariant := hinv
  have hne' : (stepped rt).table.running_pid ≠ 0 := hne
  cases h with
  | early preempts =>
    exact ⟨rt.cpu, .inl ⟨preempts.due, rfl⟩, liveStep_of_preempts hinv (hgoes preempts.due) preempts⟩
  | late quiet goesOn preempts =>
    have hlive := liveStep_of_preempts hinv' (goesOn_step hm hmessage goesOn) preempts
    exact ⟨rt.cpu.step, .inr ⟨quiet, rfl⟩, { hlive with }⟩
  | plain quiet goesOn quiet' =>
    refine ⟨rt.cpu.step, .inr ⟨quiet, rfl⟩, hinv, rfl, fun pid process' hp => ?_,
      fun _ => hne, fun _ => goesOn_step hm hmessage goesOn, rfl, rfl⟩
    exact ⟨process', hp, rfl, fun hl => ⟨hl, rfl⟩⟩
  | terminates quiet stopped terminates =>
    have hlive := liveStep_of_terminates hinv' hne' terminates
    exact ⟨rt.cpu.step, .inr ⟨quiet, rfl⟩, { hlive with }⟩

/-- A process that was ended is terminated. -/
theorem terminated_of_terminateRunning {rt : Runtime H} {staged : ProcessTable}
    {context : ProcessContext} (hinv : rt.table.Invariant) (hne : rt.table.running_pid ≠ 0)
    (h : terminateRunning rt rt.table.running_pid context = .ok staged)
    {process' : ProcessControlBlock}
    (hp : staged.processes.find? rt.table.running_pid = some process') :
    process'.state = .Terminated := by
  obtain ⟨_, _, _, _, -, -, -, -, hfind⟩ := terminateRunning_spec hinv hne h
  rw [hfind, if_pos rfl] at hp
  obtain rfl := Option.some.inj hp
  rfl

/-- A process that a step has stopped or moved off an address is not at that address afterwards. -/
theorem terminated_or_pc_ne_of_step [LongDouble] {rt after : Runtime H}
    {result : ProcessLifecycleStepResult} {address : ℕ} (hinv : rt.table.Invariant)
    (hne : rt.table.running_pid ≠ 0) (hquiet : ¬ Due rt)
    (hmoves : Stopped rt.cpu.step ∨ rt.cpu.step.core.state.pc ≠ address)
    (h : LifecycleStep rt result after) {process' : ProcessControlBlock}
    (hp : after.table.processes.find? rt.table.running_pid = some process') :
    process'.state = .Terminated ∨ (liveState after.cpu process').pc ≠ address := by
  obtain ⟨process, hprocess, hstate⟩ := (hinv.running rt.table.running_pid).mp ⟨rfl, hne⟩
  cases h with
  | early preempts => exact absurd preempts.due hquiet
  | late quiet goesOn preempts =>
    obtain ⟨d, request, controller, hd, -, rfl⟩ := preempts.switch
    have hinv' : (stepped rt).table.Invariant := hinv
    obtain ⟨hinvd, hrunning, ⟨holder, hholder, hholds⟩, -, hfind⟩ := find?_of_dispatchNext hinv' hd
    have hp' : d.table.processes.find? rt.table.running_pid = some process' := hp
    -- The process is stored as the step has left it on the CPU.
    have hstored : process'.context.pc = rt.cpu.step.core.state.pc := by
      have hfound := (hfind rt.table.running_pid).symm.trans hp'
      rw [show (stepped rt).table.processes.find? rt.table.running_pid = some process from hprocess,
        Option.map_some, Function.comp_apply, savedFrom, if_pos hstate, handedOver] at hfound
      obtain rfl := Option.some.inj hfound
      split_ifs <;> rfl
    refine .inr ?_
    rw [liveState]
    split_ifs with hr
    · have hselected := hrunning.symm.trans (hinvd.running_pid_eq hp' hr)
      rw [hselected, hp'] at hholder
      obtain rfl := Option.some.inj hholder
      show d.cpu.core.state.pc ≠ address
      rw [hholds.pc, hstored]
      exact hmoves.resolve_left goesOn
    · show process'.context.pc ≠ address
      rw [hstored]
      exact hmoves.resolve_left goesOn
  | plain quiet goesOn quiet' =>
    have hp' : rt.table.processes.find? rt.table.running_pid = some process' := hp
    obtain rfl := Option.some.inj (hprocess.symm.trans hp')
    rw [liveState_of_running hstate]
    exact .inr (hmoves.resolve_left goesOn)
  | terminates quiet stopped terminates =>
    refine .inl ?_
    have hinv' : (stepped rt).table.Invariant := hinv
    have hne' : (stepped rt).table.running_pid ≠ 0 := hne
    cases terminates with
    | last captured terminated alone => exact terminated_of_terminateRunning hinv' hne' terminated hp
    | switches captured terminated ready dispatched ne =>
      obtain ⟨-, -, -, -, -, -, hstaged, hnone, -⟩ := terminateRunning_spec hinv' hne' terminated
      have hkeeps := keepsLive_dispatchNext hstaged (fun hr => absurd hnone hr) dispatched
      obtain ⟨finished, hfinished, -, hterminated⟩ := hkeeps.live _ process' hp
      exact hterminated.mpr (terminated_of_terminateRunning hinv' hne' terminated hfinished)

end ProcessLifecycleManager

end ZeroCpu.Kernel
