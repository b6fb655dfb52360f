import ZeroCpu.Kernel.LiveState
import ZeroCpu.System.Residents

/-!
# Traces are complete

Reference: `src/system/MultiProcessRunner.cpp`, `src/trace/TraceEvent.cpp`.

The runner selects the events of a process by comparing lengths of the CPU's trace around each round.
`Traced` is the invariant that makes the selection complete: the events recorded for a process lead
from the state its image starts in to the state it is in, on the CPU or in the table.
-/

namespace ZeroCpu.Sys

open Library Kernel

variable {H : Type}

/-- The state an image starts in. -/
def initialState (image : ProcessImage) : CPUState where
  registers := image.initial_registers
  memory := image.memory
  flags := ⟨image.initial_flags⟩
  privilegeLevel := image.initial_privilege
  pc := image.initial_pc
  sp := image.initial_sp
  halted := false
  hasError := false
  errorMessage := []

/-- The events recorded for a process. -/
def eventsOf (pid : ProcessId) (records : List ProcessExecutionTraceRecord) : List TraceEvent :=
  (records.filter fun record => record.pid == pid).map ProcessExecutionTraceRecord.event

/-- The registers, FLAGS and memory a summary shows. -/
def ProcessRunSummary.view (summary : ProcessRunSummary) : MachineView :=
  ⟨summary.final_context.registers, ⟨summary.final_context.flags⟩, summary.final_memory⟩

namespace MultiProcessRunner

open CPU (Logs)

/-- The events recorded so far lead every process from its image's start to the state it is in. -/
structure Traced (images : List ProcessImage) (s : RunState H) : Prop where
  invariant : s.runtime.table.Invariant
  state : s.runtime.lifecycle.state = s.runtimeState
  recorded : s.runtime.cpu.setup.Recorded
  goesOn : s.runtimeState = .Running → GoesOn s.runtime.cpu.core.state
  keys : s.runtime.table.processes.keys = List.range' 1 images.length
  logs : ∀ pid process, s.runtime.table.processes.find? pid = some process →
    ∃ image now, images[pid - 1]? = some image
      ∧ Logs (initialState image) (eventsOf pid s.executionTrace) now
      ∧ (liveState s.runtime.cpu process).view = now.view
      ∧ (process.state ≠ .Terminated → liveState s.runtime.cpu process = now)

/-- A new record adds its event to those of its own process only. -/
theorem eventsOf_append (pid : ProcessId) (records : List ProcessExecutionTraceRecord)
    (record : ProcessExecutionTraceRecord) :
    eventsOf pid (records ++ [record])
      = if record.pid = pid then eventsOf pid records ++ [record.event] else eventsOf pid records := by
  rw [eventsOf, List.filter_append, List.map_append]
  split_ifs with h
  · rw [List.filter_cons_of_pos (by simpa using h)]
    rfl
  · rw [List.filter_cons_of_neg (by simpa using h)]
    exact List.append_nil _

/-- Nothing is recorded when the CPU's trace has not grown. -/
theorem record_executionTrace_same {s : RunState H} {after : Runtime H} {pid : ProcessId}
    {result : ProcessLifecycleStepResult} (h : after.cpu.trace = s.runtime.cpu.trace) :
    (record s s.runtime after pid result).executionTrace = s.executionTrace := by
  simp only [record, h, lt_irrefl, gt_iff_lt, if_false]
  split <;> rfl

/-- The event that the CPU's trace has grown by is recorded. -/
theorem record_executionTrace_grown {s : RunState H} {after : Runtime H} {pid : ProcessId}
    {result : ProcessLifecycleStepResult} {event : TraceEvent}
    (h : after.cpu.trace = s.runtime.cpu.trace ++ [event]) :
    (record s s.runtime after pid result).executionTrace
      = s.executionTrace ++ [⟨s.lifecycleSteps + 1, pid, event⟩] := by
  simp only [record, h, List.getLast?_concat, List.length_append, List.length_singleton,
    gt_iff_lt, Nat.lt_succ_self, if_true]

/-- A booted runtime has empty traces. -/
theorem traced_of_booted {host : H} {images : List ProcessImage} {options : MultiProcessRunOptions H}
    {s : RunState H}
    (hhandler : ∀ handler, options.software_interrupt_handler = some handler → handler.Recorded)
    (h : Booted host images options s) : Traced images s := by
  obtain ⟨table, timer, selected, d, hcreated, -, hd, rfl⟩ := h.started
  have hkeeps := keepsLive_dispatchNext hcreated.invariant (fun hr => absurd hcreated.running hr) hd
  refine ⟨hkeeps.invariant, rfl, fun handler hsome => hhandler handler ?_, fun _ => hkeeps.goesOn, ?_,
    fun pid process hp => ?_⟩
  · exact hkeeps.connections.softwareInterruptHandler.symm.trans hsome
  · exact hkeeps.keys.trans hcreated.keys
  · obtain ⟨old, hold, hlive, hterminated⟩ := hkeeps.live pid process hp
    obtain ⟨image, himage, rfl⟩ := hcreated.find pid old hold
    have hstart : liveState d.cpu process = initialState image := hlive
    exact ⟨image, initialState image, himage, .nil _, congrArg CPUState.view hstart, fun _ => hstart⟩

/-- Preparing a round at most halts the process that runs. -/
theorem Prepared.state {rt rt' : Runtime H} (h : Prepared rt rt') :
    rt'.cpu.core.state = rt.cpu.core.state
    ∨ rt'.cpu.core.state = { rt.cpu.core.state with halted := true }
      ∧ ¬ TimerPreemptiveScheduler.Due rt' := by
  cases h with
  | running inside => exact .inl rfl
  | completed atEnd => exact .inr ⟨rfl, not_due_completed rt⟩

/-- What one round adds to the record, and what it does to the state of every process. -/
theorem live_round [LongDouble] {images : List ProcessImage} {s : RunState H} {rt after : Runtime H}
    {result : ProcessLifecycleStepResult} (h : Traced images s) (hrunning : s.runtimeState = .Running)
    (hne : s.runtime.table.running_pid ≠ 0) (hprepared : Prepared s.runtime rt)
    (hstep : ProcessLifecycleManager.LifecycleStep rt result after) :
    ∃ moved, ProcessLifecycleManager.LiveStep rt moved after ∧ moved.setup = s.runtime.cpu.setup
      ∧ ((moved.trace = s.runtime.cpu.trace
          ∧ moved.core.state.view = s.runtime.cpu.core.state.view
          ∧ (GoesOn moved.core.state → moved.core.state = s.runtime.cpu.core.state))
        ∨ ∃ event : TraceEvent, moved.trace = s.runtime.cpu.trace ++ [event]
          ∧ event.before = s.runtime.cpu.core.state ∧ event.after = moved.core.state
          ∧ event.before.SameUnrecorded event.after) := by
  have hgoes := h.goesOn hrunning
  have hinv : rt.table.Invariant := hprepared.table.symm ▸ h.invariant
  have hne' : rt.table.running_pid ≠ 0 := hprepared.table.symm ▸ hne
  obtain ⟨hsetup, htrace⟩ : rt.cpu.setup = s.runtime.cpu.setup ∧ rt.cpu.trace = s.runtime.cpu.trace := by
    cases hprepared <;> exact ⟨rfl, rfl⟩
  have hm : rt.cpu.setup.Recorded := hsetup ▸ h.recorded
  rcases hprepared.state with hstate | ⟨hstate, hquiet⟩
  · have hgoes' : GoesOn rt.cpu.core.state := hstate ▸ hgoes
    obtain ⟨moved, hmoved, hlive⟩ := ProcessLifecycleManager.liveStep_of_step hinv hne' hm
      (fun _ => hgoes'.no_message) (fun _ => hgoes') hstep
    refine ⟨moved, hlive, ?_⟩
    rcases hmoved with ⟨-, rfl⟩ | ⟨-, rfl⟩
    · exact ⟨hsetup, .inl ⟨htrace, congrArg CPUState.view hstate, fun _ => hstate⟩⟩
    · refine ⟨(CPU.step_setup rt.cpu).trans hsetup, .inr ?_⟩
      rcases CPU.step_trace hm fun _ => hgoes'.no_message with
        ⟨hstopped, -⟩ | ⟨-, event, hevent, hbefore, hafter, hunrecorded⟩
      · rcases hstopped with hstopped | hstopped
        · exact absurd (hgoes'.not_halted.symm.trans hstopped) nofun
        · exact absurd (hgoes'.no_error.symm.trans hstopped) nofun
      · refine ⟨event, by rw [hevent, htrace], hbefore.trans hstate, hafter, ?_⟩
        rw [hbefore, hafter]
        exact ⟨hunrecorded.reserved, hunrecorded.size⟩
  · -- A halted CPU does not step: the process is completed as it is.
    have hmessage : rt.cpu.core.state.errorMessage = [] := by
      rw [hstate]
      exact hgoes.no_message
    have hhalted : rt.cpu.core.state.halted = true := by rw [hstate]
    obtain ⟨moved, hmoved, hlive⟩ := ProcessLifecycleManager.liveStep_of_step hinv hne' hm
      (fun _ => hmessage) (fun hdue => absurd hdue hquiet) hstep
    refine ⟨moved, hlive, ?_⟩
    rcases hmoved with ⟨hdue, -⟩ | ⟨-, rfl⟩
    · exact absurd hdue hquiet
    · rw [CPU.step_of_stopped (.inl hhalted)]
      refine ⟨hsetup, .inl ⟨htrace, by rw [hstate]; rfl, fun hgoesOn => ?_⟩⟩
      exact absurd (hgoesOn.not_halted.symm.trans hhalted) nofun

/-- Every round keeps the traces complete. -/
theorem Traced.iterate [LongDouble] {images : List ProcessImage} {s s' : RunState H}
    (h : Traced images s) (hrunning : s.runtimeState = .Running)
    (hiterate : MultiProcessRunner.iterate s = .ok s') : Traced images s' := by
  obtain ⟨hne, rt, result, after, hprepared, hstep, rfl⟩ :=
    iterate_eq_ok h.invariant (h.state.trans hrunning) hiterate
  obtain ⟨moved, hlive, hsetup, hmoved⟩ := live_round h hrunning hne hprepared hstep
  have hrecorded : after.cpu.setup.Recorded := fun handler hsome => by
    refine h.recorded handler ?_
    rw [← hsetup, ← hlive.handler]
    exact hsome
  refine ⟨hlive.invariant, hstep.state, hrecorded,
    fun hstate => hlive.goesOn (hlive.running (hstep.state.trans hstate)),
    (hprepared.table ▸ hlive.keys).trans h.keys, fun pid process' hp => ?_⟩
  obtain ⟨process, hprocess, hview, hsame⟩ := hlive.live pid process' hp
  rw [hprepared.table] at hprocess
  obtain ⟨image, now, himage, hlogs, hnow, hlast⟩ := h.logs pid process hprocess
  have hgoes := hlive.goesOn_liveState hp
  show ∃ image now, images[pid - 1]? = some image ∧ Logs (initialState image)
      (eventsOf pid (record s s.runtime after s.runtime.table.running_pid result).executionTrace) now
    ∧ (liveState after.cpu process').view = now.view
    ∧ (process'.state ≠ .Terminated → liveState after.cpu process' = now)
  by_cases hr : process.state = .Running
  · -- The process that runs has moved on as the CPU has.
    have hpid := h.invariant.running_pid_eq hprocess hr
    rw [liveState_of_running hr] at hview hsame hnow hlast
    have hnow' := hlast (by rw [hr]; exact nofun)
    rcases hmoved with ⟨htrace, hkept, hkept'⟩ | ⟨event, htrace, hbefore, hafter, hunrecorded⟩
    · rw [record_executionTrace_same (hlive.trace.trans htrace)]
      refine ⟨image, now, himage, hlogs, ?_, fun hl => ?_⟩
      · rw [hview, hkept, hnow]
      · have hmoved := (hsame hl).2
        rw [hmoved] at hgoes ⊢
        rw [hkept' hgoes, hnow']
    · rw [record_executionTrace_grown (hlive.trace.trans htrace), eventsOf_append, if_pos hpid]
      refine ⟨image, event.after, himage, hlogs.concat (hbefore.trans hnow') hunrecorded, ?_,
        fun hl => ?_⟩
      · rw [hview, hafter]
      · rw [(hsame hl).2, hafter]
  · -- Any other process is where it was, and nothing is recorded for it.
    have hpid : s.runtime.table.running_pid ≠ pid := by
      intro heq
      obtain ⟨process'', hp'', hr''⟩ := (h.invariant.running pid).mp ⟨heq, heq ▸ hne⟩
      rw [hprocess] at hp''
      exact hr (Option.some.inj hp'' ▸ hr'')
    rw [liveState_of_idle hr] at hview hsame hnow hlast
    have hevents : eventsOf pid
        (record s s.runtime after s.runtime.table.running_pid result).executionTrace
          = eventsOf pid s.executionTrace := by
      rcases hmoved with ⟨htrace, -⟩ | ⟨event, htrace, -⟩
      · rw [record_executionTrace_same (hlive.trace.trans htrace)]
      · rw [record_executionTrace_grown (hlive.trace.trans htrace), eventsOf_append, if_neg hpid]
    rw [hevents]
    exact ⟨image, now, himage, hlogs, hview.trans hnow,
      fun hl => (hsame hl).2.trans (hlast (hsame hl).1)⟩

/-- A summary shows the state its process is in. -/
theorem makeSummary_view {pid : ProcessId} {process : ProcessControlBlock} {cpu : CPU (Board H)}
    {isRunning : Bool} {summary : ProcessRunSummary} (hrunning : isRunning = true ↔ process.state = .Running)
    (h : makeSummary pid process cpu isRunning = .ok summary) :
    summary.view = (liveState cpu process).view := by
  obtain ⟨context, hcontext, h⟩ := bind_eq_ok.mp h
  obtain rfl := Except.ok.inj h
  cases isRunning with
  | true =>
    rw [liveState_of_running (hrunning.mp rfl)]
    simp only [finalContext, if_true, captureProcessContextSnapshot, bind_eq_ok] at hcontext
    obtain ⟨_, -, _, -, hcontext⟩ := hcontext
    obtain rfl := Except.ok.inj hcontext
    rfl
  | false =>
    rw [liveState_of_idle fun hr => Bool.false_ne_true (hrunning.mpr hr)]
    obtain rfl : process.context = context := Except.ok.inj hcontext
    rfl

end MultiProcessRunner

/-! ## The theorem -/

/-- The CPU has just had a program loaded, in either representation. -/
inductive JustLoaded {W : Type} : CPU W → Prop
  | program (cpu : CPU W) (program : List Instruction) (labels : LabelTable) :
      JustLoaded (cpu.loadProgram program labels)
  | binary {cpu loaded : CPU W} {program : Binary.BinaryProgram} {u : Unit}
      (loads : CPU.loadBinaryProgram program cpu = (.ok u, loaded)) : JustLoaded loaded

/-- A CPU that was just loaded has no trace and no error. -/
theorem JustLoaded.fresh {W : Type} {cpu : CPU W} (h : JustLoaded cpu) :
    cpu.trace = [] ∧ cpu.core.state.errorMessage = [] := by
  cases h with
  | program cpu program labels => exact ⟨rfl, rfl⟩
  | binary loads =>
    simp only [CPU.loadBinaryProgram, ↓Exec.get_bind_eq_ok, ↓Exec.modify_bind_eq_ok,
      ↓Exec.lift_bind_eq_ok] at loads
    obtain ⟨loaded, -, loads⟩ := loads
    obtain rfl := Exec.modify_eq_ok.mp loads
    exact ⟨rfl, rfl⟩

/-- Each record of the log starts where the one before it ended, the first one in `first`, and
replaying the log over `first` gives `last`. -/
def Complete (first : CPUState) (log : List TraceEvent) (last : MachineView) : Prop :=
  (∃ reached, Leads TraceEvent.before TraceEvent.after first log reached)
    ∧ log.foldl MachineView.replay first.view = last

/-- The system call dispatcher leaves nothing unrecorded. -/
theorem recorded_protectedSyscallDispatcher {W : Type} (filesystem : Ref W ZeroFS) :
    (protectedSyscallDispatcher filesystem).Recorded where
  unrecorded vector mmioBus state := by
    intro p h
    have hserved := keeps_protectedSyscallDispatcher filesystem vector mmioBus p.1 p (.refl p.1)
    exact ⟨hserved.flags ▸ h.reserved, hserved.size.trans h.size⟩
  message vector mmioBus := by
    intro p h herror
    have hserved := keeps_protectedSyscallDispatcher filesystem vector mmioBus p.1 p (.refl p.1)
    exact hserved.errorMessage.trans (h (hserved.hasError.symm.trans herror))

/-- Traces are complete, process by process for every run of the runner, and for every run of a CPU
from its loaded state. -/
theorem traces_complete [LongDouble] :
    (∀ (H : Type) (host : H) (images : List ProcessImage) (options : MultiProcessRunOptions H)
      (result : MultiProcessRunResult),
      (∀ handler, options.software_interrupt_handler = some handler → handler.Recorded) →
      MultiProcessRunner.runImages host images options = .ok result →
      result.processes.map ProcessRunSummary.pid = List.range' 1 images.length
        ∧ ∀ summary ∈ result.processes, ∃ image, images[summary.pid - 1]? = some image
          ∧ Complete (initialState image) (eventsOf summary.pid result.execution_trace) summary.view)
    ∧ ∀ (W : Type) (cpu : CPU W) (n : ℕ), JustLoaded cpu → cpu.setup.Recorded →
      Complete cpu.core.state (cpu.steps n).trace (cpu.steps n).core.state.view := by
  refine ⟨?_, ?_⟩
  · intro H host images options result hhandler hrun
    simp only [MultiProcessRunner.runImages, bind_eq_ok] at hrun
    obtain ⟨booted, hboot, s, hloop, hfinish⟩ := hrun
    -- The logs of all processes at once, through the whole run.
    have htraced := MultiProcessRunner.runLoop_induct
      (fun s s' h hrunning hiterate => MultiProcessRunner.Traced.iterate h hrunning hiterate)
      (MultiProcessRunner.traced_of_booted hhandler (MultiProcessRunner.boot_eq_ok hboot)) hloop
    obtain ⟨summaries, hsummaries, hfinish⟩ := bind_eq_ok.mp hfinish
    obtain rfl := Except.ok.inj hfinish
    obtain ⟨hpids, hall⟩ := MultiProcessRunner.makeSummaries_eq_ok hsummaries
    refine ⟨hpids.trans htraced.keys, fun summary hsummary => ?_⟩
    obtain ⟨process, hprocess, hmake⟩ := hall summary hsummary
    obtain ⟨image, now, himage, hlogs, hview, -⟩ := htraced.logs summary.pid process hprocess
    refine ⟨image, himage, ⟨now, hlogs.leads⟩, ?_⟩
    rw [MultiProcessRunner.makeSummary_view
      (MultiProcessRunner.isRunning_iff htraced.invariant hprocess) hmake, hview]
    exact hlogs.replay
  · intro W cpu n hloaded hm
    obtain ⟨htrace, hmessage⟩ := hloaded.fresh
    obtain ⟨log, hlog, hlogs⟩ := CPU.steps_trace n hm fun _ => hmessage
    rw [htrace, List.nil_append] at hlog
    rw [hlog]
    exact ⟨⟨_, hlogs.leads⟩, hlogs.replay⟩

/-- `INT 5` as an image. -/
def trapImage : ProcessImage :=
  imageOf (oneInstruction ⟨.INT, .immediate 5, .none⟩) (Str.ofString "trap")

/-- Options with a long quantum and the given handler. -/
def plainOptions (handler : Option (SoftwareInterruptHandler (Board Unit))) :
    MultiProcessRunOptions Unit where
  timer_vector := 240
  quantum := 100
  timer_payload := 0
  max_lifecycle_steps := 10
  normal_exit_code := 0
  fault_exit_code := 1
  mmio_bus := none
  software_interrupt_handler := handler

/-- A handler that sets a reserved bit of FLAGS and ends the process. -/
def markingHandler : SoftwareInterruptHandler (Board Unit) where
  handles _ := true
  handle _ _ := do
    Exec.modify fun p => ({ p.1 with flags := ⟨p.1.flags.bits ||| 2⟩ }, p.2)
    pure { disposition := .TerminateProcess }

/-- The flag changes of an event are those of the four flags: a reserved bit that a handler sets is
in no event. -/
theorem trace_misses_reserved_flag :
    letI : LongDouble := LongDouble.x87
    ∃ result, MultiProcessRunner.runImages () [trapImage] (plainOptions (some markingHandler))
        = .ok result
      ∧ ∃ summary ∈ result.processes,
        (eventsOf summary.pid result.execution_trace).foldl MachineView.replay
          (initialState trapImage).view ≠ summary.view := by
  have hflags : (@MultiProcessRunner.runImages _ LongDouble.x87 () [trapImage]
      (plainOptions (some markingHandler))).toOption.map (fun result =>
        result.processes.map fun summary => (((eventsOf summary.pid result.execution_trace).foldl
          MachineView.replay (initialState trapImage).view).flags, summary.view.flags))
      = some [(⟨0⟩, ⟨2⟩)] := by
    decide +kernel
  generalize @MultiProcessRunner.runImages _ LongDouble.x87 () [trapImage]
    (plainOptions (some markingHandler)) = run at hflags ⊢
  cases run with
  | error e => cases hflags
  | ok result =>
    obtain ⟨summary, hprocesses, hpair⟩ := List.map_eq_singleton_iff.mp (Option.some.inj hflags)
    obtain ⟨hreplayed, hshown⟩ := Prod.ext_iff.mp hpair
    refine ⟨result, rfl, summary, by rw [hprocesses]; exact List.mem_singleton_self _, fun heq => ?_⟩
    have hbits := (hreplayed.symm.trans (congrArg MachineView.flags heq)).trans hshown
    exact absurd hbits (by decide)

/-- A value, a push and a call. -/
def workProgram : List Instruction :=
  [⟨.MOV, .register .R3, .immediate 7⟩, ⟨.PUSH, .register .R3, .none⟩, ⟨.INT, .immediate 80, .none⟩,
    ⟨.NOP, .none, .none⟩]

/-- The program as an image. -/
def workImage : ProcessImage :=
  imageOf {
    header := { code_size := 96 }
    code := (InstructionEncoder.encodeProgram workProgram []).toOption.getD [] }
    (Str.ofString "work")

/-- Two processes at work in turns, an instruction each, over the dispatcher. -/
def workRun [LongDouble] : Except Str MultiProcessRunResult :=
  MultiProcessRunner.runImages freshFilesystem [workImage, workImage]
    { syscallOptions with quantum := 1, max_lifecycle_steps := 20 }

/-- Two processes switched after every instruction, and a single CPU that runs the same program. -/
theorem traces_complete_work :
    letI : LongDouble := LongDouble.x87
    let cpu := (CPU.new ()).loadProgram workProgram []
    (∃ result, workRun = .ok result
      ∧ result.execution_trace.map ProcessExecutionTraceRecord.pid = [1, 2, 1, 2, 1, 2, 1, 2]
      ∧ ∀ summary ∈ result.processes, ∃ image, [workImage, workImage][summary.pid - 1]? = some image
        ∧ Complete (initialState image) (eventsOf summary.pid result.execution_trace) summary.view)
    ∧ (cpu.steps 2).trace.length = 2
    ∧ Complete cpu.core.state (cpu.steps 2).trace (cpu.steps 2).core.state.view := by
  have hpids : (@workRun LongDouble.x87).toOption.map (fun result =>
      result.execution_trace.map ProcessExecutionTraceRecord.pid) = some [1, 2, 1, 2, 1, 2, 1, 2] := by
    decide +kernel
  have hlength : (@CPU.steps _ LongDouble.x87 2 ((CPU.new ()).loadProgram workProgram [])).trace.length
      = 2 := by
    decide +kernel
  generalize LongDouble.x87 = longDouble at hpids hlength ⊢
  refine ⟨?_, hlength, traces_complete.2 Unit _ 2 (.program _ _ _) fun handler h => by cases h⟩
  cases hrun : @workRun longDouble with
  | error e =>
    rw [hrun] at hpids
    cases hpids
  | ok result =>
    rw [hrun] at hpids
    refine ⟨result, rfl, Option.some.inj hpids, (traces_complete.1 ZeroFS freshFilesystem
      [workImage, workImage] _ result (fun handler h => ?_) hrun).2⟩
    obtain rfl := Option.some.inj h
    exact recorded_protectedSyscallDispatcher _

end ZeroCpu.Sys
