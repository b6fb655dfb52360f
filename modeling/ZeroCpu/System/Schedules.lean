import ZeroCpu.Kernel.OwnSteps
import ZeroCpu.Library.Courses
import ZeroCpu.System.Consistency
import ZeroCpu.System.Preemption

/-!
# Schedule independence

Reference: `src/system/MultiProcessRunner.cpp`, `runImages`; `src/kernel/ProcessDispatcher.cpp`.

A process that reaches neither a device nor a host handler has one life: the states that it goes through
by itself, from the initial state of its image to the first in which it is over. In every state of a run
every process is somewhere in its life, and one that has terminated was over. So two runs that complete
leave a process in the same state, wherever the timer has cut its life.
-/

namespace ZeroCpu.Sys

open Library Kernel ProcessLifecycleManager TimerPreemptiveScheduler

variable {H : Type}

/-! ## Lives -/

/-- The process has stopped, or is at the end of its code. -/
def Over (image : ProcessImage) (state : CPUState) : Prop :=
  (state.halted = true ∨ state.hasError = true) ∨ state.pc = 512 + image.executable.code.length

/-- The states that a process of the image goes through by itself. -/
def Lives [LongDouble] (image : ProcessImage) : CPUState → Prop :=
  Course (Over image) (ownStep image) (initialState image)

/-! ## Processes of a run -/

/-- No access of a User process reaches a device of the caller's. -/
def DeviceFree (options : MultiProcessRunOptions H) : Prop :=
  ∀ bus, options.mmio_bus = some bus → ∀ address, address + 8 ≤ 512 →
    bus.hasDeviceAt address = false

/-- Without handler and devices a CPU is secluded. -/
theorem Connected.secluded {options : MultiProcessRunOptions H} {base : Setup (Board H)}
    (h : Connected options base) (hhandler : options.software_interrupt_handler = none)
    (hfree : DeviceFree options) : Secluded NoVectors base where
  handler := h.softwareInterruptHandler.trans hhandler
  window address hle := by
    rw [CPU.busAt, h.mmioBus]
    cases hbus : options.mmio_bus with
    | none => rfl
    | some bus =>
      rw [Option.map_some, Option.filter_some, MMIOBus.hasDeviceAt_zoom, hfree bus hbus address hle]
      rfl
  controller := by
    rw [h.interruptController]
    rfl
  no_vector r hr board hboard := by
    obtain rfl := Option.some.inj (h.interruptController.symm.trans hr)
    exact hboard

namespace MultiProcessRunner

variable {host : H} {images : List ProcessImage} {options : MultiProcessRunOptions H}
  {base : Setup (Board H)} {rt after : Runtime H} {s s' : RunState H}

/-- The process under `pid` has ended its life. -/
def Finished [LongDouble] (images : List ProcessImage) (options : MultiProcessRunOptions H)
    (pid : ProcessId) (process : ProcessControlBlock) : Prop :=
  ∃ image final, imageAt images pid = some image ∧ Lives image final ∧ Over image final
    ∧ EndsIn options.normal_exit_code options.fault_exit_code final process

/-- Every process of the runtime is somewhere in its life, or has ended it. -/
structure Follows [LongDouble] (images : List ProcessImage) (options : MultiProcessRunOptions H)
    (rt : Runtime H) : Prop where
  live : ∀ pid process, rt.table.processes.find? pid = some process → process.state ≠ .Terminated →
    ∃ image, imageAt images pid = some image ∧ Lives image (liveState rt.cpu process)
  finished : ∀ pid process, rt.table.processes.find? pid = some process →
    process.state = .Terminated → Finished images options pid process
  plain : Plain options.normal_exit_code options.fault_exit_code rt

/-- The step from `rt` takes the running process to the state `final` of its life, or finds it halted
at the end of its life. -/
structure Leads [LongDouble] (images : List ProcessImage) (rt : Runtime H) (image : ProcessImage)
    (final : CPUState) : Prop where
  owner : imageAt images rt.table.running_pid = some image
  life : Lives image final
  reached : rt.cpu.step.core.state = final
    ∨ Over image final ∧ rt.cpu.step.core.state = { final with halted := true }

/-- Once the CPU has stopped, the process on it is at the end of its life. -/
theorem Leads.finished [LongDouble] {image : ProcessImage} {final : CPUState}
    (h : Leads images rt image final) (hstopped : Stopped rt.cpu.step) {process : ProcessControlBlock}
    (hends : EndsIn options.normal_exit_code options.fault_exit_code rt.cpu.step.core.state process) :
    Finished images options rt.table.running_pid process := by
  refine ⟨image, final, h.owner, h.life, ?_⟩
  rcases h.reached with heq | ⟨hover, heq⟩
  · rw [Stopped, heq] at hstopped
    exact ⟨.inl hstopped, heq ▸ hends⟩
  · rw [heq] at hends
    exact ⟨hover, { hends with }⟩

/-- A process that goes on after a step is in the state that it has been led to. -/
theorem Leads.goesOn [LongDouble] {image : ProcessImage} {final : CPUState}
    (h : Leads images rt image final) (hgoes : ¬ Stopped rt.cpu.step) :
    Lives image rt.cpu.step.core.state := by
  rcases h.reached with heq | ⟨-, heq⟩
  · rw [heq]
    exact h.life
  · refine absurd (.inl ?_) hgoes
    rw [heq]

/-- A step takes every process on in its life. -/
theorem Follows.step [LongDouble] {before : Runtime H} (h : Follows images options before)
    (htable : rt.table = before.table) (hinv : rt.table.Invariant)
    (hne : rt.table.running_pid ≠ 0) (hrunning : rt.lifecycle.state = .Running)
    (hhandler : rt.cpu.setup.softwareInterruptHandler = none)
    (hmessage : rt.cpu.core.state.hasError = false → rt.cpu.core.state.errorMessage = [])
    (hplain : Plain options.normal_exit_code options.fault_exit_code rt)
    (hkernel : rt.cpu.step.core.kernelStackPointer = MemoryMap.kKernelStackBase) (hquiet : ¬ Due rt)
    {image : ProcessImage} {final : CPUState} (hleads : Leads images rt image final)
    {result : ProcessLifecycleStepResult} (hstep : LifecycleStep rt result after) :
    Follows images options after := by
  have hrecorded : rt.cpu.setup.Recorded := fun handler hsome => by
    rw [hhandler] at hsome
    cases hsome
  obtain ⟨moved, hmoved, hlive⟩ := liveStep_of_step hinv hne hrecorded hmessage
    (fun hdue => absurd hdue hquiet) hstep
  obtain ⟨-, rfl⟩ := hmoved.resolve_left fun hdue => hquiet hdue.1
  have hexit : rt.cpu.step.core.processExitRequest = none :=
    exitRequest_of_step hhandler hplain.exitRequest
  have hends := endsRunning_of_step hinv hne hrunning hquiet hexit hkernel hstep
  refine ⟨fun pid process' hp hgoes => ?_, fun pid process' hp hterminated => ?_,
    hplain.lifecycleStep hinv hne hhandler hstep⟩
  · obtain ⟨process, hprocess, -, hsame⟩ := hlive.live pid process' hp
    obtain ⟨hgoes', hsame⟩ := hsame hgoes
    rw [hsame, liveState]
    split_ifs with hstate
    · -- The running process has not stopped, since it would have been terminated.
      have hpid := hinv.running_pid_eq hprocess hstate
      refine ⟨image, hpid ▸ hleads.owner, hleads.goesOn fun hstopped => ?_⟩
      obtain ⟨ended, hended, hin⟩ := hends.ended (hends.stopped.mpr hstopped)
      rw [hpid, hp] at hended
      obtain rfl := Option.some.inj hended
      exact hgoes hin.terminated
    · rw [htable] at hprocess
      obtain ⟨image', himage, hlives⟩ := h.live pid process hprocess hgoes'
      rw [liveState_of_idle hstate] at hlives
      exact ⟨image', himage, hlives⟩
  · rcases hends.table.fresh pid process' hp hterminated with hold | hfresh
    · exact h.finished pid process' (htable ▸ hold) hterminated
    · split_ifs at hfresh with hended
      obtain rfl := Option.some.inj hfresh
      obtain ⟨ended, hfound, hin⟩ := hends.ended hended
      rw [hp] at hfound
      obtain rfl := Option.some.inj hfound
      rw [hplain.normal, hplain.fault] at hin
      exact hleads.finished (hends.stopped.mp hended) hin

/-- The process on the CPU is in the state of the CPU. -/
theorem Follows.running [LongDouble] (h : Follows images options rt) (hinv : rt.table.Invariant)
    (hne : rt.table.running_pid ≠ 0) {image : ProcessImage}
    (himage : imageAt images rt.table.running_pid = some image) :
    Lives image rt.cpu.core.state := by
  obtain ⟨process, hprocess, hstate⟩ := (hinv.running rt.table.running_pid).mp ⟨rfl, hne⟩
  have hgoes : process.state ≠ .Terminated := by
    rw [hstate]
    exact ProcessState.noConfusion
  obtain ⟨image', himage', hlives⟩ := h.live _ process hprocess hgoes
  obtain rfl := Option.some.inj (himage.symm.trans himage')
  rwa [liveState_of_running hstate] at hlives

/-- A round takes every process on in its life. -/
theorem Follows.iterate [LongDouble] {n p : ℕ} (h : Follows images options s.runtime)
    (hbase : Connected options base) (hhandler : options.software_interrupt_handler = none)
    (hfree : DeviceFree options) (hquantum : options.quantum ≠ 0)
    (haccounted : Accounted images options base n p s) (hroom : n + 1 < 2 ^ 64)
    (hrunning : s.runtimeState = .Running) (hiterate : MultiProcessRunner.iterate s = .ok s') :
    Follows images options s'.runtime ∧ (s'.runtimeState = .Completed →
      ∀ pid process, s'.runtime.table.processes.find? pid = some process →
        process.state = .Terminated) := by
  have hadmissible : Admissible options.software_interrupt_handler := hhandler ▸ .absent
  have hsteady := haccounted.steady
  have hinv := hsteady.settled.invariant
  have hlifecycle := hsteady.state.trans hrunning
  obtain ⟨hne, rt, result, after, hprepared, hstep, rfl⟩ := iterate_eq_ok hinv hlifecycle hiterate
  obtain ⟨image, himage, hresident⟩ := hsteady.settled.resident hne
  have hgoes := hsteady.going hne
  have hend := hsteady.settled.reachedExecutableEnd hne hgoes
  have hlives := h.running hinv hne himage
  have hnone : s.runtime.cpu.setup.softwareInterruptHandler = none := by
    rw [hresident.setup]
    exact (hbase.secluded hhandler hfree).handler
  have hmessage := (haccounted.traced.goesOn hrunning).no_message
  have hcodeEnd : s.runtime.cpu.setup.userCodeEndExclusive = 512 + image.executable.code.length := by
    rw [hresident.setup]
    rfl
  -- Recording the round clears the observation on the CPU, which nothing here depends on.
  suffices hafter : Follows images options after ∧ (result.state = .Completed →
      ∀ pid process, after.table.processes.find? pid = some process →
        process.state = .Terminated) from
    ⟨⟨hafter.1.live, hafter.1.finished, { hafter.1.plain with }⟩, hafter.2⟩
  cases hprepared with
  | running inside =>
    refine ⟨?_, fun hcompleted pid process hp =>
      allTerminated_of_completed hinv hne hlifecycle hstep hcompleted hp⟩
    obtain rfl : p = 0 := by
      by_contra hp
      have hatEnd := (haccounted.tallied.at_end (Nat.pos_of_ne_zero hp)).1
      exact Bool.noConfusion (Except.ok.inj (hatEnd.symm.trans inside))
    have hquiet : ¬ Due s.runtime := fun hdue =>
      absurd ((due_iff haccounted.tallied.board).mp hdue).1 (lt_irrefl 0)
    have hnot : ¬ Over image s.runtime.cpu.core.state := by
      rintro (hstopped | hpc)
      · exact hgoes hstopped
      · rw [inside, hcodeEnd, hpc, beq_self_eq_true] at hend
        exact Bool.noConfusion (Except.ok.inj hend)
    have hstate : s.runtime.cpu.step.core.state = ownStep image s.runtime.cpu.core.state := by
      obtain ⟨-, -, hclock⟩ := step_onBoard hbase hadmissible hquantum haccounted.tallied.ticks_lt
        hresident hgoes haccounted.tallied.board
      rw [hclock hroom]
      exact hresident.step_state (hbase.secluded hhandler hfree) hgoes
    have hstepped := hbase.carries.step_of_absent hhandler hresident
    exact h.step rfl hinv hne hlifecycle hnone (fun _ => hmessage) h.plain hstepped.user.kernel_sp
      hquiet ⟨himage, Course.step hlives hnot, .inl hstate⟩ hstep
  | completed atEnd =>
    set rt : Runtime H := { discardCompletionTimerRequest s.runtime with
      cpu := haltCpu (discardCompletionTimerRequest s.runtime).cpu } with hrt
    have hinv' : rt.table.Invariant := hinv
    have hne' : rt.table.running_pid ≠ 0 := hne
    refine ⟨?_, fun hcompleted pid process hp =>
      allTerminated_of_completed hinv' hne' hlifecycle hstep hcompleted hp⟩
    have hidle : rt.cpu.step = rt.cpu := CPU.step_of_stopped (.inl rfl)
    have hover : Over image s.runtime.cpu.core.state := by
      rw [atEnd, hcodeEnd] at hend
      exact .inr (beq_iff_eq.mp (Except.ok.inj hend).symm)
    have hkernel : rt.cpu.step.core.kernelStackPointer = MemoryMap.kKernelStackBase := by
      rw [hidle]
      exact hresident.user.kernel_sp
    have hplain : Plain options.normal_exit_code options.fault_exit_code rt := { h.plain with }
    have htable : rt.table = s.runtime.table := rfl
    refine h.step htable hinv' hne' hlifecycle hnone (fun _ => hmessage) hplain hkernel
      (not_due_completed s.runtime) ⟨himage, hlives, .inr ⟨hover, ?_⟩⟩ hstep
    rw [hidle]
    rfl

/-! ## Runs -/

/-- Every life begins with the initial state of its image. -/
theorem Booted.follows [LongDouble] (h : Booted host images options s) :
    Follows images options s.runtime := by
  obtain ⟨table, timer, selected, d, hcreated, -, hd, rfl⟩ := h.started
  have hkeeps := keepsLive_dispatchNext hcreated.invariant (fun hr => absurd hcreated.running hr) hd
  have hcalls := sameCalls_of_dispatchNext
    (d := ⟨attachedCpu host options timer table, table, .initial⟩) hcreated.invariant hd
  refine ⟨fun pid process hp _ => ?_, fun pid process hp hterminated => ?_,
    ⟨rfl, rfl, hcalls.exitRequest rfl⟩⟩
  · obtain ⟨old, hold, hlive, -⟩ := hkeeps.live pid process hp
    obtain ⟨image, himage, rfl⟩ := hcreated.find pid old hold
    have hstart : liveState d.cpu process = initialState image := hlive
    refine ⟨image, himage, ?_⟩
    rw [hstart]
    exact Course.refl
  · obtain ⟨old, hold, -, hiff⟩ := hkeeps.live pid process hp
    obtain ⟨image, -, rfl⟩ := hcreated.find pid old hold
    exact ProcessState.noConfusion (hiff.mp hterminated)

/-- In a run that completes every process ends its life. -/
theorem follows_of_runLoop [LongDouble] (hbase : Connected options base)
    (hhandler : options.software_interrupt_handler = none) (hfree : DeviceFree options)
    (hquantum : options.quantum ≠ 0) {n p rounds : ℕ}
    (hroom : s.executionTrace.length + rounds < 2 ^ 64)
    (haccounted : Accounted images options base n p s) (h : Follows images options s.runtime)
    (hcompleted : s.runtimeState = .Completed →
      ∀ pid process, s.runtime.table.processes.find? pid = some process → process.state = .Terminated)
    (hrun : runLoop rounds s = .ok s') (hcompleted' : s'.runtimeState = .Completed) {pid : ProcessId}
    {process : ProcessControlBlock} (hp : s'.runtime.table.processes.find? pid = some process) :
    process.state = .Terminated ∧ Finished images options pid process := by
  induction rounds generalizing n p s with
  | zero =>
    obtain rfl := Except.ok.inj hrun
    have hterminated := hcompleted hcompleted' pid process hp
    exact ⟨hterminated, h.finished pid process hp hterminated⟩
  | succ rounds ih =>
    rw [runLoop] at hrun
    split_ifs at hrun with hstopped
    · obtain rfl := Except.ok.inj hrun
      have hterminated := hcompleted hcompleted' pid process hp
      exact ⟨hterminated, h.finished pid process hp hterminated⟩
    · obtain ⟨next, hnext, hrest⟩ := bind_eq_ok.mp hrun
      have hrunning := not_not.mp hstopped
      -- The ticks so far are instructions in the trace, one round adds at most one of them.
      have hticks : n ≤ s.executionTrace.length :=
        haccounted.tallied.executed ▸ List.countP_le_length
      obtain ⟨hfollows, hdone⟩ := h.iterate hbase hhandler hfree hquantum haccounted (by omega)
        hrunning hnext
      obtain ⟨n', p', preempted, ended, haccounted', htallies⟩ :=
        haccounted.iterate hbase (hhandler ▸ .absent) hquantum hrunning hnext
      have hgrows := htallies.length_le
      exact ih (by omega) haccounted' hfollows hdone hrest

/-- The summary of a process that is not running. -/
def summaryOf (pid : ProcessId) (process : ProcessControlBlock) : ProcessRunSummary where
  pid := pid
  state := process.state
  has_exit_code := process.hasExitCode
  exit_code := if process.hasExitCode then process.exitCode else 0
  termination_kind := if process.hasExitCode then process.terminationKind else .NormalExit
  termination_message := if process.hasExitCode then process.terminationMessage else []
  final_context := process.context
  final_memory := process.addressSpace.memory

/-- The result of a run lists every process with its summary. -/
theorem process_of_finish {result : MultiProcessRunResult} (hinv : s.runtime.table.Invariant)
    (h : finish options s = .ok result) {pid : ProcessId}
    (hmem : pid ∈ s.runtime.table.processes.keys)
    (hover : ∀ process, s.runtime.table.processes.find? pid = some process → process.state ≠ .Running) :
    ∃ process, s.runtime.table.processes.find? pid = some process
      ∧ result.process pid = .ok (summaryOf pid process) := by
  obtain ⟨summary, hsummary, rfl, hshown⟩ := (finish_eq_ok h).process_eq hmem
  obtain ⟨summaries, hsummaries, hresult⟩ := bind_eq_ok.mp h
  obtain rfl := Except.ok.inj hresult
  obtain ⟨process, hp, hmake⟩ := (makeSummaries_eq_ok hsummaries).2 summary hsummary
  have hidle : (s.runtime.table.hasRunningProcess && s.runtime.table.running_pid == summary.pid)
      = false := Bool.eq_false_iff.mpr fun hruns => hover process hp ((isRunning_iff hinv hp).mp hruns)
  rw [hidle] at hmake
  exact ⟨process, hp, hshown.trans hmake.symm⟩

/-- What a result that is complete shows of a process: the end of its life. -/
theorem finished_of_runImages [LongDouble] (hhandler : options.software_interrupt_handler = none)
    (hfree : DeviceFree options) {result : MultiProcessRunResult}
    (hrun : runImages host images options = .ok result) (hcompleted : result.completed = true)
    {index : ℕ} {image : ProcessImage} (himage : images[index]? = some image) :
    ∃ process final, result.process (index + 1) = .ok (summaryOf (index + 1) process)
      ∧ Lives image final ∧ Over image final
      ∧ EndsIn options.normal_exit_code options.fault_exit_code final process := by
  simp only [runImages, bind_eq_ok] at hrun
  obtain ⟨first, hboot, s, hloop, hfinish⟩ := hrun
  have hadmissible : Admissible options.software_interrupt_handler := hhandler ▸ .absent
  have hbooted := boot_eq_ok hboot
  obtain ⟨hquantum, -, base, hbase, haccounted⟩ := hbooted.accounted hadmissible
  obtain ⟨htraced, -⟩ := consistent_of_runLoop hadmissible hboot hloop
  have hstate : s.runtimeState = .Completed := by
    rw [MultiProcessRunResult.completed, Bool.and_eq_true, beq_iff_eq] at hcompleted
    exact (finish_eq_ok hfinish).runtime_state.symm.trans hcompleted.2
  obtain ⟨hstarted, hempty⟩ : first.runtimeState = .Running ∧ first.executionTrace = [] := by
    obtain ⟨table, timer, selected, d, -, -, -, rfl⟩ := hbooted.started
    exact ⟨rfl, rfl⟩
  have hboot' : first.runtimeState = .Completed → ∀ pid process,
      first.runtime.table.processes.find? pid = some process → process.state = .Terminated :=
    fun hdone => ProcessRuntimeState.noConfusion (hstarted.symm.trans hdone)
  -- The trace is shorter than the step limit, a 64-bit word.
  have hroom : first.executionTrace.length + options.max_lifecycle_steps.toNat < 2 ^ 64 := by
    rw [hempty, List.length_nil, Nat.zero_add]
    exact options.max_lifecycle_steps.isLt
  have hlt := (List.getElem?_eq_some_iff.mp himage).1
  have hmem : index + 1 ∈ s.runtime.table.processes.keys := by
    rw [htraced.keys, List.mem_range'_1]
    omega
  -- At the end of a completed run every process has ended, and in the state its program reaches
  -- alone.
  have hends : ∀ process, s.runtime.table.processes.find? (index + 1) = some process →
      process.state = .Terminated ∧ Finished images options (index + 1) process := fun process hp =>
    follows_of_runLoop hbase hhandler hfree hquantum hroom haccounted hbooted.follows hboot' hloop hstate
      hp
  obtain ⟨process, hp, hshown⟩ := process_of_finish htraced.invariant hfinish hmem fun process hp => by
    rw [(hends process hp).1]
    exact ProcessState.noConfusion
  obtain ⟨-, image', final, himage', hlives, hover, hin⟩ := hends process hp
  have howner : imageAt images (index + 1) = some image := himage
  obtain rfl := Option.some.inj (howner.symm.trans himage')
  exact ⟨process, final, hshown, hlives, hover, hin⟩

/-- Two summaries that show the same end of a process. -/
structure SameEnd (summary summary' : ProcessRunSummary) : Prop where
  terminated : summary.terminated = true ∧ summary'.terminated = true
  termination_kind : summary.termination_kind = summary'.termination_kind
  exit_code : summary.exit_code = summary'.exit_code
  termination_message : summary.termination_message = summary'.termination_message
  registers : summary.final_context.registers = summary'.final_context.registers
  flags : summary.final_context.flags = summary'.final_context.flags
  pc : summary.final_context.pc = summary'.final_context.pc
  sp : summary.final_context.sp = summary'.final_context.sp
  kernel_stack_pointer :
    summary.final_context.kernel_stack_pointer = summary'.final_context.kernel_stack_pointer
  final_memory : summary.final_memory = summary'.final_memory

/-- Processes that end in one state end alike. -/
theorem sameEnd_of_endsIn {normalExitCode faultExitCode : Word} {final : CPUState}
    {process process' : ProcessControlBlock} (h : EndsIn normalExitCode faultExitCode final process)
    (h' : EndsIn normalExitCode faultExitCode final process') (pid pid' : ProcessId) :
    SameEnd (summaryOf pid process) (summaryOf pid' process') where
  terminated := by
    simp only [ProcessRunSummary.terminated, summaryOf, h.terminated, h'.terminated, h.hasExitCode,
      h'.hasExitCode, beq_self_eq_true, Bool.and_self, and_self]
  termination_kind := by
    simp only [summaryOf, h.hasExitCode, h'.hasExitCode, if_true, h.kind, h'.kind]
  exit_code := by
    simp only [summaryOf, h.hasExitCode, h'.hasExitCode, if_true, h.exitCode, h'.exitCode]
  termination_message := by
    simp only [summaryOf, h.hasExitCode, h'.hasExitCode, if_true, h.message, h'.message]
  registers := h.registers.trans h'.registers.symm
  flags := h.flags.trans h'.flags.symm
  pc := h.pc.trans h'.pc.symm
  sp := h.sp.trans h'.sp.symm
  kernel_stack_pointer := h.kernel_stack_pointer.trans h'.kernel_stack_pointer.symm
  final_memory := h.memory.trans h'.memory.symm

end MultiProcessRunner

open MultiProcessRunner

/-- Where User processes reach no device, a process of a run that completes ends as it does when it runs
alone, whatever the other images are and wherever the timer switches. -/
theorem schedule_independence [LongDouble] {host host' : H} {images : List ProcessImage}
    {options : MultiProcessRunOptions H} (quantum limit : BitVec 64)
    (hhandler : options.software_interrupt_handler = none) (hfree : DeviceFree options)
    {result alone : MultiProcessRunResult} (hrun : runImages host images options = .ok result)
    (hcompleted : result.completed = true) {index : ℕ} {image : ProcessImage}
    (himage : images[index]? = some image)
    (halone : runImages host' [image]
      { options with quantum := quantum, max_lifecycle_steps := limit } = .ok alone)
    (hcompleted' : alone.completed = true) :
    ∃ summary summary', result.process (index + 1) = .ok summary ∧ alone.process 1 = .ok summary'
      ∧ SameEnd summary summary' := by
  -- The end of a life depends on the exit codes of the options and on nothing else in them.
  set options' : MultiProcessRunOptions H :=
    { options with quantum := quantum, max_lifecycle_steps := limit } with hoptions'
  have hhandler' : options'.software_interrupt_handler = none := hhandler
  have hfree' : DeviceFree options' := hfree
  have hfirst : [image][0]? = some image := rfl
  obtain ⟨process, final, hshown, hlives, hover, hends⟩ :=
    finished_of_runImages hhandler hfree hrun hcompleted himage
  obtain ⟨process', final', hshown', hlives', hover', hends'⟩ :=
    finished_of_runImages hhandler' hfree' halone hcompleted' hfirst
  obtain rfl := Course.end_unique hlives hover hlives' hover'
  exact ⟨_, _, hshown, hshown', sameEnd_of_endsIn hends hends' _ _⟩

/-- Two processes that take turns after every instruction, one of which faults. -/
theorem schedule_independence_two :
    letI : LongDouble := LongDouble.x87
    ∃ result alone,
      runImages () [nopsImage, trapImage] { plainOptions none with quantum := 1 } = .ok result
      ∧ runImages () [trapImage] { plainOptions none with quantum := 3 } = .ok alone
      ∧ 0 < result.preemption_count
      ∧ ∃ summary summary', result.process 2 = .ok summary ∧ alone.process 1 = .ok summary'
        ∧ SameEnd summary summary' := by
  let _ : LongDouble := LongDouble.x87
  have hfacts : (runImages () [nopsImage, trapImage] { plainOptions none with quantum := 1 }).toOption.map
      (fun result => decide (result.completed = true ∧ 0 < result.preemption_count)) = some true := by
    decide +kernel
  have halone : (runImages () [trapImage] { plainOptions none with quantum := 3 }).toOption.map
      MultiProcessRunResult.completed = some true := by
    decide +kernel
  cases hrun : runImages () [nopsImage, trapImage] { plainOptions none with quantum := 1 } with
  | error message =>
    rw [hrun] at hfacts
    cases hfacts
  | ok result =>
    cases hrun' : runImages () [trapImage] { plainOptions none with quantum := 3 } with
    | error message =>
      rw [hrun'] at halone
      cases halone
    | ok alone =>
      rw [hrun] at hfacts
      rw [hrun'] at halone
      obtain ⟨hcompleted, hpreempted⟩ := of_decide_eq_true (Option.some.inj hfacts)
      have hfree : DeviceFree ({ plainOptions none with quantum := 1 } : MultiProcessRunOptions Unit) := by
        rintro bus ⟨⟩
      have himage : [nopsImage, trapImage][1]? = some trapImage := rfl
      exact ⟨result, alone, rfl, rfl, hpreempted, schedule_independence 3 10 rfl hfree hrun hcompleted
        himage hrun' (Option.some.inj halone)⟩

/-- A device in the User data window that says how often it has been read. -/
def readCounterBus : MMIOBus ℕ where
  mappings := [{
    base := 0
    size := 8
    device :=
      { name := Str.ofString "counter"
        read := fun _ => do
          let count ← Exec.get
          Exec.modify (· + 1)
          pure (BitVec.ofNat 64 count)
        write := fun _ _ => pure () } }]

/-- Options with a bus and no handler. -/
def busOptions (bus : MMIOBus ℕ) : MultiProcessRunOptions ℕ where
  timer_vector := 240
  quantum := 100
  timer_payload := 0
  max_lifecycle_steps := 10
  normal_exit_code := 0
  fault_exit_code := 1
  mmio_bus := some bus
  software_interrupt_handler := none

/-- A process that reads a device which another one has read before it does not end as it does alone. -/
theorem not_schedule_independence :
    letI : LongDouble := LongDouble.x87
    ¬ ∀ (host : ℕ) (images : List ProcessImage) (options : MultiProcessRunOptions ℕ)
        (quantum limit : BitVec 64) (result alone : MultiProcessRunResult) (index : ℕ)
        (image : ProcessImage), options.software_interrupt_handler = none →
      runImages host images options = .ok result → result.completed = true →
      images[index]? = some image →
      runImages host [image] { options with quantum := quantum, max_lifecycle_steps := limit }
        = .ok alone → alone.completed = true →
        ∃ summary summary', result.process (index + 1) = .ok summary
          ∧ alone.process 1 = .ok summary' ∧ SameEnd summary summary' := by
  let _ : LongDouble := LongDouble.x87
  intro h
  set image := imageOf loadFirstWord (Str.ofString "load") with himage
  -- The counter of the bus is read by both processes, so the second one sees 1 where it sees 0
  -- alone.
  have hfacts : (runImages 0 [image, image] (busOptions readCounterBus)).toOption.map (fun result =>
        (result.completed, (result.process 2).toOption.map
          fun summary => summary.final_context.registers .R0)) = some (true, some 1)
      ∧ (runImages 0 [image] (busOptions readCounterBus)).toOption.map (fun result =>
        (result.completed, (result.process 1).toOption.map
          fun summary => summary.final_context.registers .R0)) = some (true, some 0) := by
    decide +kernel
  obtain ⟨hboth, halone⟩ := hfacts
  cases hrun : runImages 0 [image, image] (busOptions readCounterBus) with
  | error message =>
    rw [hrun] at hboth
    cases hboth
  | ok result =>
    cases hrun' : runImages 0 [image] (busOptions readCounterBus) with
    | error message =>
      rw [hrun'] at halone
      cases halone
    | ok alone =>
      rw [hrun] at hboth
      rw [hrun'] at halone
      obtain ⟨hcompleted, hread⟩ := Prod.ext_iff.mp (Option.some.inj hboth)
      obtain ⟨hcompleted', hread'⟩ := Prod.ext_iff.mp (Option.some.inj halone)
      obtain ⟨summary, summary', hshown, hshown', hsame⟩ := h 0 [image, image]
        (busOptions readCounterBus) 100 10 result alone 1 image rfl hrun hcompleted rfl hrun' hcompleted'
      have hsecond : result.process 2 = .ok summary := hshown
      dsimp only at hread hread'
      rw [hsecond] at hread
      rw [hshown'] at hread'
      have hone : summary.final_context.registers .R0 = 1 := Option.some.inj hread
      have hzero : summary'.final_context.registers .R0 = 0 := Option.some.inj hread'
      rw [hsame.registers, hzero] at hone
      exact absurd hone (by decide)

end ZeroCpu.Sys
