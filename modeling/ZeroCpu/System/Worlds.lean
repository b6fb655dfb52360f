import ZeroCpu.Core.Worlds
import ZeroCpu.System.Runner

/-!
# One runtime over two worlds

The caller of the runner brings the devices and the file system. Two callers whose devices no access
tells apart get the same run: the same schedule, the same switches, the same traces and the same
summaries, whatever the processes do.
-/

namespace ZeroCpu

open Library Exec

variable {W W' H H' : Type}

/-! ## The CPU outside its steps -/

namespace CPU

variable {R : W → W' → Prop} {m : Setup W} {m' : Setup W'}

/-- The check of a User code range is the same in alike setups. -/
theorem Alike.validateUserCodeRange (h : Setup.Alike R m m') (rangeBegin endExclusive : ℕ) :
    validateUserCodeRange m rangeBegin endExclusive = CPU.validateUserCodeRange m' rangeBegin endExclusive := by
  obtain ⟨⟩ := m
  obtain ⟨⟩ := m'
  obtain ⟨rfl, rfl, rfl, rfl, rfl, rfl, rfl, rfl, -, -, -, -⟩ := h
  rfl

/-- Setting the User code range keeps two CPUs alike. -/
theorem alike_setUserCodeRange (rangeBegin endExclusive : ℕ) :
    Exec.Alike (CPU.Alike R) (setUserCodeRange rangeBegin endExclusive)
      (setUserCodeRange rangeBegin endExclusive) := by
  refine .read fun cpu cpu' h => ?_
  rw [Alike.validateUserCodeRange h.setup]
  refine (Exec.Alike.lift _).bind fun _ => .modify fun _ _ h => { h with setup := ?_ }
  exact { h.setup with hasUserCodeRange := rfl, userCodeBegin := rfl, userCodeEndExclusive := rfl }

/-- Clearing the User code range keeps two CPUs alike. -/
theorem alike_clearUserCodeRange :
    Exec.Alike (CPU.Alike R) clearUserCodeRange clearUserCodeRange := by
  refine .modify fun _ _ h => { h with setup := ?_ }
  exact { h.setup with hasUserCodeRange := rfl, userCodeBegin := rfl, userCodeEndExclusive := rfl }

/-- Setting the Kernel stack pointer keeps two CPUs alike. -/
theorem alike_setKernelStackPointer (value : ℕ) :
    Exec.Alike (CPU.Alike R) (setKernelStackPointer value) (setKernelStackPointer value) := by
  refine .read fun cpu cpu' h => ?_
  rw [h.core.usingKernelInterruptStack]
  exact (Exec.Alike.require _ _).bind fun _ => (Exec.Alike.lift _).bind fun _ =>
    .modify fun _ _ h => { h with core := { h.core with kernelStackPointer := rfl } }

/-- The same change of state keeps two CPUs alike. -/
theorem Alike.updateState {cpu : CPU W} {cpu' : CPU W'} (h : CPU.Alike R cpu cpu')
    (f : CPUState → CPUState) : CPU.Alike R { cpu with core := cpu.core.updateState f }
      { cpu' with core := cpu'.core.updateState f } :=
  { h with core := { h.core with state := congrArg f h.core.state } }

/-- A change of the architectural state, as an operation on the CPU. -/
theorem alike_updateState (f : CPUState → CPUState) :
    Exec.Alike (ε := Str) (CPU.Alike R)
      (Exec.modify fun cpu : CPU W => { cpu with core := cpu.core.updateState f })
      (Exec.modify fun cpu : CPU W' => { cpu with core := cpu.core.updateState f }) :=
  .modify fun _ _ h => h.updateState f

/-- Loading an executable is alike on alike CPUs. -/
theorem alike_loadBinaryProgram (program : Binary.BinaryProgram) :
    Exec.Alike (CPU.Alike R) (loadBinaryProgram program) (loadBinaryProgram program) := by
  refine Exec.Alike.bind (.modify fun cpu cpu' h => ?_) fun _ => .read fun cpu cpu' h => ?_
  · exact ⟨{ h.setup with program := rfl, labels := rfl },
      { h.core with state := congrArg CPUState.reset h.core.state }, rfl⟩
  · rw [h.core.state]
    refine (Exec.Alike.lift _).bind fun loaded => .modify fun cpu cpu' h => ⟨?_, ?_, h.trace⟩
    · exact { h.setup with
        hasBinaryProgram := rfl, binaryCodeBase := rfl, binaryCodeSize := rfl
        hasUserCodeRange := rfl, userCodeBegin := rfl, userCodeEndExclusive := rfl }
    · refine { h.core with
        state := ?_, kernelStackPointer := rfl, usingKernelInterruptStack := rfl, processExitRequest := rfl }
      dsimp only
      rw [h.core.state]

end CPU

/-! ## Context switches -/

namespace Kernel

section Switches

variable {R : W → W' → Prop} {cpu : CPU W} {cpu' : CPU W'}

/-- Alike CPUs have the same context. -/
theorem alike_contextOf (h : CPU.Alike R cpu cpu') (pid : ProcessId) :
    contextOf pid cpu = contextOf pid cpu' := by
  simp only [contextOf, h.core.state, h.core.kernelStackPointer, h.setup.hasUserCodeRange,
    h.setup.userCodeBegin, h.setup.userCodeEndExclusive]

/-- A snapshot of alike CPUs is the same, or throws the same. -/
theorem alike_captureProcessContextSnapshot (h : CPU.Alike R cpu cpu') (pid : ProcessId) :
    captureProcessContextSnapshot pid cpu = captureProcessContextSnapshot pid cpu' := by
  simp only [captureProcessContextSnapshot, requireContextSwitchableCPU, alike_contextOf h,
    h.core.usingKernelInterruptStack]

/-- A captured context of alike CPUs is the same, or throws the same. -/
theorem alike_captureProcessContext (h : CPU.Alike R cpu cpu') (pid : ProcessId) :
    captureProcessContext pid cpu = captureProcessContext pid cpu' := by
  simp only [captureProcessContext, alike_captureProcessContextSnapshot h]

theorem alike_validateProcessContextForCPU (h : CPU.Alike R cpu cpu') (context : ProcessContext) :
    validateProcessContextForCPU context cpu = validateProcessContextForCPU context cpu' := by
  simp only [validateProcessContextForCPU, CPU.Alike.validateUserCodeRange h.setup]

/-- Restoring a context keeps two CPUs alike. -/
theorem alike_restoreProcessContext (context : ProcessContext) :
    Exec.Alike (CPU.Alike R) (restoreProcessContext context) (restoreProcessContext context) := by
  refine .read fun cpu cpu' h => ?_
  rw [alike_validateProcessContextForCPU h, requireContextSwitchableCPU, requireContextSwitchableCPU,
    h.core.usingKernelInterruptStack]
  have hrest : Exec.Alike (CPU.Alike R) (do
      CPU.setKernelStackPointer context.kernel_stack_pointer
      Exec.modify fun cpu : CPU W => { cpu with core := cpu.core.updateState (restoreState context) }) (do
      CPU.setKernelStackPointer context.kernel_stack_pointer
      Exec.modify fun cpu : CPU W' => { cpu with core := cpu.core.updateState (restoreState context) }) :=
    (CPU.alike_setKernelStackPointer _).bind fun _ => CPU.alike_updateState _
  refine (Exec.Alike.lift _).bind fun _ => (Exec.Alike.lift _).bind fun _ => ?_
  dsimp only
  split_ifs
  · exact (CPU.alike_setUserCodeRange _ _).bind fun _ => hrest
  · exact CPU.alike_clearUserCodeRange.bind fun _ => hrest

/-- Activating an address space keeps two CPUs alike. -/
theorem alike_activate (space : ProcessAddressSpace) :
    Exec.Alike (CPU.Alike R) space.activate space.activate := by
  refine Exec.Alike.staged ((Exec.Alike.lift _).bind fun _ => ?_)
  cases space.executable with
  | none => exact CPU.alike_updateState _
  | some program =>
    refine .read fun cpu cpu' h => (CPU.alike_loadBinaryProgram program).bind fun _ => ?_
    refine Exec.Alike.bind (.modify fun _ _ hloaded => ?_) fun _ => CPU.alike_updateState _
    exact { hloaded with trace := h.trace }

/-- Dispatchers that differ in the worlds of their CPUs. -/
structure Dispatch.Alike (R : W → W' → Prop) (d : Dispatch W) (d' : Dispatch W') : Prop where
  cpu : CPU.Alike R d.cpu d'.cpu
  table : d.table = d'.table
  scheduler : d.scheduler = d'.scheduler

/-- Operations that are alike on the CPUs are alike on the dispatchers around them. -/
theorem alike_zoom_cpuRef {α : Type} {x : Exec Str (CPU W) α} {y : Exec Str (CPU W') α}
    (h : Exec.Alike (CPU.Alike R) x y) :
    Exec.Alike (Dispatch.Alike R) (Exec.zoom Dispatch.cpuRef x) (Exec.zoom Dispatch.cpuRef y) :=
  h.zoom (fun _ _ hst => hst.cpu) fun _ _ _ _ hst hab => { hst with cpu := hab }

/-- What only sees the table and the scheduler is the same on both sides. -/
theorem alike_zoom_schedulingRef {α : Type} (x : Exec Str (ProcessTable × RoundRobinScheduler) α) :
    Exec.Alike (Dispatch.Alike R) (Exec.zoom Dispatch.schedulingRef x)
      (Exec.zoom Dispatch.schedulingRef x) := by
  refine (Exec.Alike.refl x).zoom (fun _ _ hst => Prod.ext hst.table hst.scheduler) ?_
  rintro s t a b hst rfl
  exact ⟨hst.cpu, rfl, rfl⟩

/-- Saving the running process is alike. -/
theorem alike_saveRunning :
    Exec.Alike (Dispatch.Alike R) (saveRunning : Exec Str (Dispatch W) Unit) saveRunning := by
  refine .read fun d d' h => ?_
  rw [h.table, h.cpu.core.state]
  split_ifs
  · refine (Exec.Alike.lift _).bind fun currentPid => ?_
    rw [alike_captureProcessContext h.cpu]
    exact (Exec.Alike.lift _).bind fun _ => (Exec.Alike.lift _).bind fun _ =>
      .modify fun _ _ h => { h with table := rfl }
  · exact .pure ()

/-- Resuming a process is alike. -/
theorem alike_resume (selected : ProcessControlBlock) :
    Exec.Alike (Dispatch.Alike R) (resume selected : Exec Str (Dispatch W) Unit) (resume selected) := by
  refine (alike_zoom_cpuRef (alike_activate selected.addressSpace)).bind fun _ => .read fun d d' h => ?_
  rw [alike_validateProcessContextForCPU h.cpu]
  exact (Exec.Alike.lift _).bind fun _ => alike_zoom_cpuRef (alike_restoreProcessContext _)

/-- A context switch does not look at the devices. -/
theorem alike_dispatchNext :
    Exec.Alike (Dispatch.Alike R) (dispatchNext : Exec Str (Dispatch W) ProcessId) dispatchNext := by
  refine .read fun d d' h => ?_
  rw [h.cpu.core.usingKernelInterruptStack, h.table]
  refine (Exec.Alike.require _ _).bind fun _ => (Exec.Alike.require _ _).bind fun _ =>
    Exec.Alike.staged ?_
  refine alike_saveRunning.bind fun _ => (alike_zoom_schedulingRef _).bind fun selectedPid =>
    .read fun d d' h => ?_
  rw [h.table]
  exact (Exec.Alike.lift _).bind fun selected => (alike_resume selected).bind fun _ => .pure _

end Switches

/-! ## The runtime -/

/-- Boards that differ in what the caller's devices own. -/
structure Board.Alike (R : H → H' → Prop) (board : Board H) (board' : Board H') : Prop where
  host : R board.host board'.host
  timer : board.timer = board'.timer
  controller : board.controller = board'.controller

/-- Runtimes that differ in what the caller's devices own. -/
structure Runtime.Alike (R : H → H' → Prop) (rt : Runtime H) (rt' : Runtime H') : Prop where
  cpu : CPU.Alike (Board.Alike R) rt.cpu rt'.cpu
  table : rt.table = rt'.table
  scheduler : rt.scheduler = rt'.scheduler
  preemptive : rt.preemptive = rt'.preemptive
  lifecycle : rt.lifecycle = rt'.lifecycle

section Runtimes

variable {α : Type} {R : H → H' → Prop} {rt : Runtime H} {rt' : Runtime H'}

/-- The interrupt controllers of alike boards are alike. -/
theorem alike_controllerRef :
    Ref.Alike (Board.Alike R) (Board.controllerRef (H := H)) (Board.controllerRef (H := H')) where
  get _ _ h := h.controller
  set _ _ _ h := { h with controller := rfl }

/-- The timers of alike boards tick alike. -/
theorem alike_clocked : Exec.Alike (Board.Alike R)
    (TimerDevice.clocked (Board.timerRef (H := H))).tick
    (TimerDevice.clocked (Board.timerRef (H := H'))).tick := by
  have htick : Exec.Alike (Board.Alike R) (Exec.zoom (Board.timerRef (H := H)) TimerDevice.tick)
      (Exec.zoom (Board.timerRef (H := H')) TimerDevice.tick) := by
    refine (Exec.Alike.refl TimerDevice.tick).zoom (fun _ _ h => Prod.ext h.timer h.controller) ?_
    rintro s t a b hst rfl
    exact ⟨hst.host, rfl, rfl⟩
  exact htick

theorem Runtime.Alike.controller (h : Runtime.Alike R rt rt') :
    rt.board.controller = rt'.board.controller := h.cpu.core.world.controller

theorem Runtime.Alike.timer (h : Runtime.Alike R rt rt') : rt.board.timer = rt'.board.timer :=
  h.cpu.core.world.timer

/-- Alike runtimes stay alike with the same new interrupt controller. -/
theorem Runtime.Alike.setController (h : Runtime.Alike R rt rt') (controller : InterruptController) :
    Runtime.Alike R (rt.setController controller) (rt'.setController controller) :=
  { h with cpu := { h.cpu with core := { h.cpu.core with
      world := { h.cpu.core.world with controller := rfl } } } }

/-- Operations that are alike on the dispatchers are alike on the runtimes around them. -/
theorem alike_zoom_dispatchRef {x : Exec Str (Dispatch (Board H)) α}
    {y : Exec Str (Dispatch (Board H')) α} (h : Exec.Alike (Dispatch.Alike (Board.Alike R)) x y) :
    Exec.Alike (Runtime.Alike R) (Exec.zoom Runtime.dispatchRef x) (Exec.zoom Runtime.dispatchRef y) :=
  h.zoom (fun _ _ hst => ⟨hst.cpu, hst.table, hst.scheduler⟩) fun _ _ _ _ hst hab =>
    { hst with cpu := hab.cpu, table := hab.table, scheduler := hab.scheduler }

/-! ### Preemption -/

namespace TimerPreemptiveScheduler

/-- Attaching the timer and the controller keeps two runtimes alike. -/
theorem alike_attach :
    Exec.Alike (Runtime.Alike R) (attach : Exec Str (Runtime H) Unit) attach := by
  refine .read fun rt rt' h => ?_
  have hcontroller : rt.cpu.setup.interruptController.isNone
      = rt'.cpu.setup.interruptController.isNone := by
    have hrel := h.cpu.setup.interruptController
    generalize rt.cpu.setup.interruptController = r at hrel ⊢
    generalize rt'.cpu.setup.interruptController = r' at hrel ⊢
    cases hrel <;> rfl
  rw [h.preemptive, hcontroller]
  split_ifs
  · exact .pure ()
  · refine (Exec.Alike.require _ _).bind fun _ => .modify fun rt rt' h => ?_
    refine { h with cpu := { h.cpu with setup := { h.cpu.setup with
        interruptController := .some alike_controllerRef, clockedDevices := ?_ } }, preemptive := ?_ }
    · exact List.rel_append h.cpu.setup.clockedDevices (.cons alike_clocked .nil)
    · dsimp only
      rw [h.preemptive]

/-- A change of the scheduler's counts keeps two runtimes alike. -/
theorem alike_modifyPreemptive (f : TimerPreemptiveScheduler → TimerPreemptiveScheduler) :
    Exec.Alike (ε := Str) (Runtime.Alike R)
      (Exec.modify fun rt : Runtime H => { rt with preemptive := f rt.preemptive })
      (Exec.modify fun rt : Runtime H' => { rt with preemptive := f rt.preemptive }) :=
  .modify fun _ _ h => { h with preemptive := congrArg f h.preemptive }

/-- Starting the timer scheduler keeps two runtimes alike. -/
theorem alike_start :
    Exec.Alike (Runtime.Alike R) (start : Exec Str (Runtime H) ProcessId) start := by
  refine .read fun rt rt' h => ?_
  rw [h.preemptive]
  exact (Exec.Alike.require _ _).bind fun _ => alike_attach.bind fun _ =>
    (alike_zoom_dispatchRef alike_dispatchNext).bind fun _ =>
    (alike_modifyPreemptive fun preemptive => { preemptive with started := true }).bind
      fun _ => .pure _

theorem alike_atUserCodeEnd {W W' : Type} {R : W → W' → Prop} {cpu : CPU W} {cpu' : CPU W'}
    (h : CPU.Alike R cpu cpu') : atUserCodeEnd cpu = atUserCodeEnd cpu' := by
  simp only [atUserCodeEnd, h.core.state, h.setup.hasUserCodeRange, h.setup.userCodeEndExclusive]

/-- A preemption keeps two runtimes alike. -/
theorem alike_preempt :
    Exec.Alike (Runtime.Alike R) (preempt : Exec Str (Runtime H) ProcessId) preempt := by
  refine .read fun rt rt' h => ?_
  rw [h.table]
  refine (Exec.Alike.lift _).bind fun previousPid =>
    (alike_zoom_dispatchRef alike_dispatchNext).bind fun selectedPid => .read fun rt rt' h => ?_
  rw [h.controller, h.timer]
  exact (Exec.Alike.lift _).bind fun acknowledged =>
    Exec.Alike.bind (.modify fun _ _ h => h.setController _) fun _ =>
    (Exec.Alike.require _ _).bind fun _ => (alike_modifyPreemptive fun preemptive =>
      { preemptive with
        preemption_count := preemptive.preemption_count + 1
        context_switch_count := preemptive.context_switch_count
          + if selectedPid ≠ previousPid then 1 else 0 }).bind fun _ => .pure _

/-- Alike runtimes serve the same pending request, or none. -/
theorem alike_servicePendingPreemption : Exec.Alike (Runtime.Alike R)
    (servicePendingPreemption : Exec Str (Runtime H) (Option ProcessId)) servicePendingPreemption := by
  refine .read fun rt rt' h => ?_
  rw [h.controller, h.timer, alike_atUserCodeEnd h.cpu]
  split_ifs
  · exact .pure none
  · exact .pure none
  · exact alike_preempt.bind fun _ => .pure _

/-- A step of the running process keeps two runtimes alike. -/
theorem alike_stepCpu [LongDouble] (runningPid : ProcessId) : Exec.Alike (Runtime.Alike R)
    (stepCpu runningPid : Exec Str (Runtime H) ProcessId) (stepCpu runningPid) := by
  refine Exec.Alike.bind (.modify fun rt rt' h => { h with cpu := h.cpu.step }) fun _ =>
    .read fun rt rt' h => ?_
  rw [h.cpu.core.state, h.table]
  split_ifs
  · exact .lift _
  · exact alike_servicePendingPreemption.bind fun _ => .pure _

/-- A step of the timer scheduler keeps two runtimes alike. -/
theorem alike_step [LongDouble] :
    Exec.Alike (Runtime.Alike R) (step : Exec Str (Runtime H) ProcessId) step := by
  refine .read fun rt rt' h => ?_
  rw [h.preemptive, h.table]
  refine (Exec.Alike.require _ _).bind fun _ => (Exec.Alike.require _ _).bind fun _ =>
    (Exec.Alike.require _ _).bind fun _ => (Exec.Alike.lift _).bind fun runningPid =>
    alike_servicePendingPreemption.bind fun serviced => ?_
  cases serviced with
  | some selectedPid => exact .pure selectedPid
  | none => exact alike_stepCpu runningPid

end TimerPreemptiveScheduler

/-! ### The process lifecycle -/

namespace ProcessLifecycleManager

/-- A change of the lifecycle's counts keeps two runtimes alike. -/
theorem alike_modifyLifecycle (f : ProcessLifecycleManager → ProcessLifecycleManager) :
    Exec.Alike (ε := Str) (Runtime.Alike R)
      (Exec.modify fun rt : Runtime H => { rt with lifecycle := f rt.lifecycle })
      (Exec.modify fun rt : Runtime H' => { rt with lifecycle := f rt.lifecycle }) :=
  .modify fun _ _ h => { h with lifecycle := congrArg f h.lifecycle }

/-- Starting the lifecycle keeps two runtimes alike. -/
theorem alike_start :
    Exec.Alike (Runtime.Alike R) (start : Exec Str (Runtime H) ProcessRuntimeState) start := by
  refine .read fun rt rt' h => ?_
  rw [h.lifecycle, h.table]
  refine (Exec.Alike.require _ _).bind fun _ => ?_
  split_ifs
  · refine Exec.Alike.bind (.modify fun rt rt' h => ?_) fun _ => .pure _
    refine { h with cpu := h.cpu.updateState _, lifecycle := ?_ }
    dsimp only
    rw [h.lifecycle]
  · exact TimerPreemptiveScheduler.alike_start.bind fun _ =>
      (alike_modifyLifecycle fun lifecycle => { lifecycle with state := .Running, started := true }).bind
        fun _ => .pure _

/-- The table after a process has ended is the same on both sides. -/
theorem alike_terminateRunning (h : Runtime.Alike R rt rt') (terminatedPid : ProcessId)
    (finalContext : ProcessContext) :
    terminateRunning rt terminatedPid finalContext = terminateRunning rt' terminatedPid finalContext := by
  simp only [terminateRunning, h.cpu.core.state, h.cpu.core.processExitRequest, h.table, h.lifecycle]

/-- Dispatching the next ready process keeps two runtimes alike. -/
theorem alike_dispatchReady (stagedTable : ProcessTable) : Exec.Alike (Runtime.Alike R)
    (dispatchReady stagedTable : Exec Str (Runtime H) ProcessId) (dispatchReady stagedTable) := by
  refine .read fun rt rt' h => ?_
  split_ifs
  · exact Exec.Alike.bind (.modify fun _ _ h => { h with table := rfl }) fun _ => .pure 0
  · have hstart : Dispatch.Alike (Board.Alike R) ⟨rt.cpu, stagedTable, rt.scheduler⟩
        ⟨rt'.cpu, stagedTable, rt'.scheduler⟩ := ⟨h.cpu, rfl, h.scheduler⟩
    obtain ⟨result, d, d', hd, hd', hafter⟩ := alike_dispatchNext.exists_outcome hstart
    rw [hd, hd']
    cases result with
    | error e => exact .throw e
    | ok nextPid =>
      refine Exec.Alike.bind (.modify fun _ _ h => ?_) fun _ => .pure nextPid
      exact { h with cpu := hafter.cpu, table := hafter.table, scheduler := hafter.scheduler }

/-- Ending a stopped process keeps two runtimes alike. -/
theorem alike_terminateStopped : Exec.Alike (Runtime.Alike R)
    (terminateStopped : Exec Str (Runtime H) ProcessLifecycleStepResult) terminateStopped := by
  refine .read fun rt rt' h => ?_
  rw [h.table, h.cpu.core.state, h.cpu.core.processExitRequest]
  refine (Exec.Alike.lift _).bind fun terminatedPid => ?_
  rw [alike_captureProcessContextSnapshot h.cpu]
  refine (Exec.Alike.lift _).bind fun finalContext => ?_
  rw [alike_terminateRunning h]
  refine (Exec.Alike.lift _).bind fun stagedTable => (alike_dispatchReady stagedTable).bind
    fun nextPid => ?_
  refine Exec.Alike.bind (.modify fun rt rt' h => ?_) fun _ =>
    Exec.Alike.bind (.modify fun rt rt' h => ?_) fun _ => .read fun rt rt' h => ?_
  -- A request to exit has been answered.
  · refine { h with cpu := ?_, lifecycle := ?_ }
    · dsimp only
      split_ifs
      · exact { h.cpu with core := { h.cpu.core with processExitRequest := rfl } }
      · exact h.cpu
    · dsimp only
      rw [h.lifecycle]
  · rw [h.lifecycle, h.table]
    split_ifs
    · exact { h with table := rfl, lifecycle := rfl }
    · exact { h with cpu := h.cpu.updateState _, table := rfl, lifecycle := rfl }
  · rw [h.lifecycle]
    exact .pure _

/-- A round of the lifecycle does the same to two runtimes. -/
theorem alike_step [LongDouble] :
    Exec.Alike (Runtime.Alike R) (step : Exec Str (Runtime H) ProcessLifecycleStepResult) step := by
  refine .read fun rt rt' h => ?_
  rw [h.lifecycle, h.table]
  refine (Exec.Alike.require _ _).bind fun _ => ?_
  split_ifs
  · exact .pure _
  · refine (Exec.Alike.require _ _).bind fun _ => TimerPreemptiveScheduler.alike_step.bind fun _ =>
      .read fun rt rt' h => ?_
    rw [h.cpu.core.state, h.table, h.lifecycle]
    split_ifs
    · exact (Exec.Alike.lift _).bind fun _ => .pure _
    · exact alike_terminateStopped

end ProcessLifecycleManager

end Runtimes

end Kernel

/-! ## The runner -/

namespace Sys

open Kernel

/-- Callers whose devices and whose handler cannot be told apart. -/
structure MultiProcessRunOptions.Alike (R : H → H' → Prop) (options : MultiProcessRunOptions H)
    (options' : MultiProcessRunOptions H') : Prop where
  timer_vector : options.timer_vector = options'.timer_vector
  quantum : options.quantum = options'.quantum
  timer_payload : options.timer_payload = options'.timer_payload
  max_lifecycle_steps : options.max_lifecycle_steps = options'.max_lifecycle_steps
  normal_exit_code : options.normal_exit_code = options'.normal_exit_code
  fault_exit_code : options.fault_exit_code = options'.fault_exit_code
  mmio_bus : Option.Rel (MMIOBus.Alike (Board.Alike R)) (options.mmio_bus.map (MMIOBus.zoom Board.hostRef))
    (options'.mmio_bus.map (MMIOBus.zoom Board.hostRef))
  software_interrupt_handler : Option.Rel (SoftwareInterruptHandler.Alike (Board.Alike R)
      (options.mmio_bus.map (MMIOBus.zoom Board.hostRef))
      (options'.mmio_bus.map (MMIOBus.zoom Board.hostRef)))
    options.software_interrupt_handler options'.software_interrupt_handler

namespace MultiProcessRunner

/-- Runs that have recorded the same so far. -/
structure RunState.Alike (R : H → H' → Prop) (s : RunState H) (s' : RunState H') : Prop where
  runtime : Runtime.Alike R s.runtime s'.runtime
  runtimeState : s.runtimeState = s'.runtimeState
  lifecycleSteps : s.lifecycleSteps = s'.lifecycleSteps
  executionTrace : s.executionTrace = s'.executionTrace
  softwareInterrupts : s.softwareInterrupts = s'.softwareInterrupts
  contextSwitches : s.contextSwitches = s'.contextSwitches

section Runs

variable {R : H → H' → Prop} {options : MultiProcessRunOptions H} {options' : MultiProcessRunOptions H'}
  {rt : Runtime H} {rt' : Runtime H'} {s : RunState H} {s' : RunState H'}

/-- Two fresh runtimes over related hosts are alike. -/
theorem alike_newRuntime (h : options.Alike R options') {host : H} {host' : H'} (hhost : R host host')
    (timer : TimerDevice) (table : ProcessTable) :
    Runtime.Alike R (newRuntime host options timer table) (newRuntime host' options' timer table) where
  cpu :=
    { setup := ⟨rfl, rfl, rfl, rfl, rfl, rfl, rfl, rfl, h.mmio_bus, .none, h.software_interrupt_handler,
        .nil⟩
      core := ⟨rfl, rfl, rfl, rfl, rfl, ⟨hhost, rfl, rfl⟩⟩
      trace := rfl }
  table := rfl
  scheduler := rfl
  preemptive := rfl
  lifecycle := by simp only [newRuntime, h.normal_exit_code, h.fault_exit_code]

/-- Two boots over related hosts throw the same, or reach alike states. -/
theorem alike_boot (h : options.Alike R options') {host : H} {host' : H'} (hhost : R host host')
    (images : List ProcessImage) :
    SameOutcome (RunState.Alike R) (boot host images options) (boot host' images options') := by
  have hvalid : validateOptions options = validateOptions options' := by
    simp only [validateOptions, h.quantum, h.max_lifecycle_steps]
  rw [boot, boot, hvalid, h.timer_vector, h.quantum, h.timer_payload]
  refine (SameOutcome.refl _).bind fun _ _ _ => (SameOutcome.refl _).bind fun _ _ _ =>
    (SameOutcome.refl _).bind fun table _ htable => (SameOutcome.refl _).bind fun timer _ htimer => ?_
  obtain rfl := htable
  obtain rfl := htimer
  obtain ⟨result, after, after', hs, ht, hafter⟩ :=
    ProcessLifecycleManager.alike_start.exists_outcome (alike_newRuntime h hhost timer table)
  rw [hs, ht]
  cases result with
  | error e => exact .error e
  | ok runtimeState => exact .ok ⟨hafter, rfl, rfl, rfl, rfl, rfl⟩

theorem alike_reachedExecutableEnd (h : Runtime.Alike R rt rt') :
    reachedExecutableEnd rt = reachedExecutableEnd rt' := by
  simp only [reachedExecutableEnd, h.table, h.cpu.core.state]

/-- Completing a process at the end of its code keeps two runtimes alike. -/
theorem alike_completeAtEnd (h : Runtime.Alike R rt rt') :
    SameOutcome (Runtime.Alike R) (completeAtEnd rt) (completeAtEnd rt') := by
  rw [completeAtEnd, completeAtEnd, alike_reachedExecutableEnd h]
  refine (SameOutcome.refl _).bind fun atEnd _ hatEnd => ?_
  obtain rfl := hatEnd
  have hdiscard : Runtime.Alike R (discardCompletionTimerRequest rt) (discardCompletionTimerRequest rt') := by
    rw [discardCompletionTimerRequest, discardCompletionTimerRequest, h.controller, h.timer]
    exact h.setController _
  split_ifs
  · exact .ok { hdiscard with cpu := hdiscard.cpu.updateState _ }
  · exact .ok h

/-- Alike states stay alike when they record the same round. -/
theorem alike_record (h : s.Alike R s') (hbefore : Runtime.Alike R rt rt') {after : Runtime H}
    {after' : Runtime H'} (hafter : Runtime.Alike R after after') (beforePid : ProcessId)
    (stepResult : ProcessLifecycleStepResult) :
    RunState.Alike R (record s rt after beforePid stepResult) (record s' rt' after' beforePid stepResult) where
  runtime := { hafter with cpu := { hafter.cpu with core := { hafter.cpu.core with
    softwareInterruptObservation := rfl } } }
  runtimeState := rfl
  lifecycleSteps := congrArg (· + 1) h.lifecycleSteps
  executionTrace := by
    simp only [record, hafter.cpu.trace, hbefore.cpu.trace, h.executionTrace, h.lifecycleSteps]
  softwareInterrupts := by
    simp only [record, hafter.cpu.core.softwareInterruptObservation, h.softwareInterrupts,
      h.lifecycleSteps]
  contextSwitches := by
    simp only [record, hafter.table, hafter.preemptive, hbefore.preemptive, h.contextSwitches,
      h.lifecycleSteps]

/-- A round of the loop keeps two runs alike. -/
theorem alike_iterate [LongDouble] (h : s.Alike R s') :
    SameOutcome (RunState.Alike R) (iterate s) (iterate s') := by
  rw [iterate, iterate, h.runtime.table]
  refine (SameOutcome.refl _).bind fun _ _ _ => (SameOutcome.refl _).bind fun beforePid _ hpid =>
    (alike_completeAtEnd h.runtime).bind fun rt rt' hrt => ?_
  obtain rfl := hpid
  obtain ⟨result, after, after', hs, ht, hafter⟩ :=
    ProcessLifecycleManager.alike_step.exists_outcome hrt
  rw [hs, ht]
  cases result with
  | error e => exact .error e
  | ok stepResult => exact .ok (alike_record h h.runtime hafter beforePid stepResult)

/-- No number of rounds tells the worlds apart. -/
theorem alike_runLoop [LongDouble] (h : s.Alike R s') (rounds : ℕ) :
    SameOutcome (RunState.Alike R) (runLoop rounds s) (runLoop rounds s') := by
  induction rounds generalizing s s' with
  | zero => exact .ok h
  | succ rounds ih =>
    rw [runLoop, runLoop, h.runtimeState]
    split_ifs
    · exact .ok h
    · exact (alike_iterate h).bind fun _ _ hnext => ih hnext

/-- The summary of a process is the same on both sides. -/
theorem alike_makeSummary (h : Runtime.Alike R rt rt') (pid : ProcessId) (process : ProcessControlBlock)
    (isRunning : Bool) :
    makeSummary pid process rt.cpu isRunning = makeSummary pid process rt'.cpu isRunning := by
  simp only [makeSummary, finalContext, alike_captureProcessContextSnapshot h.cpu, h.cpu.core.state]

/-- The summaries of all processes are the same on both sides. -/
theorem alike_makeSummaries (h : Runtime.Alike R rt rt') (pids : List ProcessId) :
    makeSummaries rt pids = makeSummaries rt' pids := by
  induction pids with
  | nil => rfl
  | cons pid rest ih => simp only [makeSummaries, h.table, alike_makeSummary h, ih]

/-- Alike runs end in the same result. -/
theorem alike_finish (hoptions : options.Alike R options') (h : s.Alike R s') :
    finish options s = finish options' s' := by
  simp only [finish, alike_makeSummaries h.runtime, h.runtime.table, h.runtime.lifecycle,
    h.runtime.preemptive, h.runtimeState, h.lifecycleSteps, h.executionTrace, h.softwareInterrupts,
    h.contextSwitches, hoptions.max_lifecycle_steps]

/-- Callers that cannot be told apart get the same result. -/
theorem alike_runImages [LongDouble] (h : options.Alike R options') {host : H} {host' : H'}
    (hhost : R host host') (images : List ProcessImage) :
    runImages host images options = runImages host' images options' := by
  have hrun : SameOutcome Eq (runImages host images options) (runImages host' images options') := by
    rw [runImages, runImages, h.max_lifecycle_steps]
    refine (alike_boot h hhost images).bind fun _ _ hboot => (alike_runLoop hboot _).bind
      fun _ _ hloop => ?_
    rw [alike_finish h hloop]
    exact SameOutcome.refl _
  exact hrun.eq

end Runs

end MultiProcessRunner

end Sys

end ZeroCpu
