import ZeroCpu.Core.Agreement
import ZeroCpu.Core.StepConformance
import ZeroCpu.Kernel.Accounts
import ZeroCpu.Kernel.Residency

/-!
# What a process does by itself

Reference: `src/core/CPU.cpp`, `step`; `src/kernel/ProcessContext.cpp`.

Where a User process can reach neither a device nor a host handler, the next state of the process is a
function of its image and its state, whatever else is on the machine: `ownStep`. Two CPUs that such a
process is on agree on all of its state after a step.
-/

namespace ZeroCpu.Kernel

open Library Exec

variable {W W' : Type}

/-! ## Machines that a process has to itself -/

/-- From User code nothing but the CPU can be reached, and no vector handler can be entered. -/
structure Secluded (worldOk : W → Prop) (m : Setup W) : Prop where
  handler : m.softwareInterruptHandler = none
  window : ∀ address, address + 8 ≤ 512 → CPU.busAt m address = none
  controller : m.interruptController.isSome = true
  no_vector : ∀ r, m.interruptController = some r → ∀ w, worldOk w →
    ∀ vector, (r.get w).vectorTable vector = none

/-- The controller as the whole of a world. -/
def controllerRef : Ref InterruptController InterruptController where
  get controller := controller
  set controller _ := controller
  get_set _ _ := rfl
  set_get _ := rfl
  set_set _ _ _ := rfl

/-- A CPU with an interrupt controller and nothing else. -/
def bareSetup : Setup InterruptController :=
  { (CPU.new InterruptController.clear).setup with interruptController := some controllerRef }

/-- The process of an image in some state, on a CPU of its own. -/
def ownCpu (image : ProcessImage) (state : CPUState) : CPU InterruptController where
  setup := loadedSetup bareSetup image
  core :=
    { state := state
      kernelStackPointer := MemoryMap.kKernelStackBase
      usingKernelInterruptStack := false
      softwareInterruptObservation := none
      processExitRequest := none
      world := InterruptController.clear }
  trace := []

/-- The state that a process goes on to by itself. -/
def ownStep [LongDouble] (image : ProcessImage) (state : CPUState) : CPUState :=
  (ownCpu image state).step.core.state

/-- No vector handler has been configured. -/
def Unvectored (controller : InterruptController) : Prop :=
  ∀ vector, controller.vectorTable vector = none

/-- A setup without bus and devices is secluded. -/
theorem secluded_bareSetup : Secluded Unvectored bareSetup where
  handler := rfl
  window _ _ := rfl
  controller := rfl
  no_vector r hr w hw := by
    obtain rfl := Option.some.inj hr
    exact hw

/-! ## Two CPUs with the same process -/

section Twins

variable {worldOk : W → Prop} {worldOk' : W' → Prop} {base : Setup W} {base' : Setup W'}
  {image : ProcessImage}

/-- One process on two CPUs: nothing differs but the worlds. -/
def twinMatching (worldOk : W → Prop) (worldOk' : W' → Prop) : Matching W W' where
  pc := id
  visible _ := True
  world w w' := worldOk w ∧ worldOk' w'
  strict := True

/-- The matching of two secluded CPUs fits the same image on both. -/
theorem twin_fits (h : Secluded worldOk base) (h' : Secluded worldOk' base') :
    (twinMatching worldOk worldOk').Fits (loadedSetup base image) (loadedSetup base' image) where
  window _ _ := trivial
  bus address hle := by
    have hnone : CPU.busAt (loadedSetup base image) address = none := h.window address hle
    have hnone' : CPU.busAt (loadedSetup base' image) address = none := h'.window address hle
    rw [hnone, hnone']
    trivial
  executable address := by
    have hsame : CPU.requireExecutionAddress (loadedSetup base' image) address .user
        = CPU.requireExecutionAddress (loadedSetup base image) address .user := rfl
    show Matches True _ _ (CPU.requireExecutionAddress (loadedSetup base' image) address .user)
    rw [hsame]
    exact Matches.refl (fun _ => trivial) _

/-- Neither of two secluded CPUs has interrupts. -/
theorem twin_noInterrupts (h : Secluded worldOk base) (h' : Secluded worldOk' base') :
    NoInterrupts (twinMatching worldOk worldOk') (loadedSetup base image)
      (loadedSetup base' image) where
  handler := h.handler
  handler' := h'.handler
  connected := h.controller.trans h'.controller.symm
  no_vector r hr w _ hw := h.no_vector r hr w hw.1
  no_vector' r hr _ w' hw := h'.no_vector r hr w' hw.2

/-- An operand matches itself. -/
theorem twin_operandMatches (c : Matching W W') (hc : c.pc = id) (v : OperandView) :
    OperandMatches c v v where
  register := Matches.refl (fun _ => rfl) _
  address _ := Matches.refl (fun _ => rfl) _
  source _ := Matches.refl (fun _ => rfl) _
  target := Matches.refl (fun a => (congrFun hc a).symm) _

/-- An instruction matches itself on two secluded CPUs. -/
theorem twin_instructionMatches (h : Secluded worldOk base) (h' : Secluded worldOk' base')
    (image : ProcessImage) (d : DecodedInstruction) : InstructionMatches (twinMatching worldOk worldOk')
      (loadedSetup base image) (loadedSetup base' image) (d.view (loadedSetup base image))
      (d.view (loadedSetup base' image)) where
  opcode := rfl
  noOperand := Matches.refl (fun _ => rfl) _
  oneOperand := Matches.refl (fun _ => rfl) _
  twoOperands := Matches.refl (fun _ => rfl) _
  dst := twin_operandMatches _ rfl _
  src := twin_operandMatches _ rfl _
  calls _ := rfl
  interrupts _ := twin_noInterrupts h h'

/-- The binary engine matches itself. -/
theorem twin_fitsEngines (c : Matching W W') (hc : c.pc = id) (m : Setup W) (m' : Setup W') :
    c.FitsEngines (Engine.binary m) (Engine.binary m') where
  advance _ := by
    rw [hc]
    rfl
  returnError _ := rfl
  invalidOpcode _ := rfl

/-- The same instruction is executed on both CPUs, or none. -/
theorem twin_instructionPart [LongDouble] (h : Secluded worldOk base)
    (h' : Secluded worldOk' base') {core : Core W} {core' : Core W'}
    (hagree : Agree (twinMatching worldOk worldOk') core core') (hstate : core.state = core'.state) :
    AgreeState (twinMatching worldOk worldOk')
      (CPU.settle (CPU.instructionPart (loadedSetup base image) core))
      (CPU.settle (CPU.instructionPart (loadedSetup base' image) core')) := by
  have hbinary : ∀ {V : Type} (m : Setup V), (loadedSetup m image).hasBinaryProgram = true :=
    fun _ => rfl
  have hfetched : CPU.fetched (loadedSetup base' image) core'.state
      = CPU.fetched (loadedSetup base image) core.state := by
    rw [hstate]
    rfl
  rw [CPU.instructionPart, CPU.instructionPart, if_pos (hbinary base), if_pos (hbinary base'),
    hfetched]
  cases CPU.fetched (loadedSetup base image) core.state with
  | error message => exact (CPU.agree_settle_error (fun _ => rfl) hagree.toAgreeState).1
  | ok p =>
    dsimp only
    rw [CPU.executeBinaryInstruction_eq_perform, CPU.executeBinaryInstruction_eq_perform]
    have hsim := CPU.sim_perform (twin_fits h h')
      (twin_fitsEngines _ rfl (loadedSetup base image) (loadedSetup base' image))
      (twin_instructionMatches h h' image p.1)
    exact (CPU.agree_settle ((hsim.conseq (fun _ _ h => h) (fun _ _ _ _ h => h.2)
      fun _ _ _ _ h => h) core core' hagree)).1

/-- Agreement on everything that a process can observe is equality of its state. -/
theorem twin_state_eq {core : Core W} {core' : Core W'}
    (h : AgreeState (twinMatching worldOk worldOk') core core') : core.state = core'.state := by
  have hmemory : core.state.memory = core'.state.memory :=
    Memory.ext_byteAt (h.memory_size.trans h.memory_size'.symm) fun i _ => h.memory i trivial
  have hprivilege := h.user.trans h.user'.symm
  have hmessage := h.errorMessage trivial
  obtain ⟨-, -, hregisters, hflags, hsp, hhalted, herror, -, -, -, -, -, -, -, hpc⟩ := h
  change core'.state.pc = core.state.pc at hpc
  rcases core with ⟨⟨_, _, _, _, _, _, _, _, _⟩, _, _, _, _, _⟩
  rcases core' with ⟨⟨_, _, _, _, _, _, _, _, _⟩, _, _, _, _, _⟩
  simp only at *
  subst hregisters hmemory hflags hprivilege hpc hsp hhalted herror hmessage
  rfl

/-- A process goes on to the same state on either CPU. -/
theorem twin_step [LongDouble] (h : Secluded worldOk base) (h' : Secluded worldOk' base')
    {cpu : CPU W} {cpu' : CPU W'} (hcpu : Resident worldOk base image cpu)
    (hcpu' : Resident worldOk' base' image cpu') (hstate : cpu.core.state = cpu'.core.state)
    (hrun : ¬ cpu.Stopped) :
    cpu.withoutClock.step.core.state = cpu'.withoutClock.step.core.state := by
  have hrun' : ¬ cpu'.Stopped := by
    rw [CPU.Stopped, ← hstate]
    exact hrun
  have hpending : cpu.NoPending := by
    intro r hr
    rw [hcpu.setup] at hr
    exact InterruptController.hasPending_of_vectorTable (h.no_vector r hr _ hcpu.user.world)
  have hpending' : cpu'.NoPending := by
    intro r hr
    rw [hcpu'.setup] at hr
    exact InterruptController.hasPending_of_vectorTable (h'.no_vector r hr _ hcpu'.user.world)
  -- Two CPUs with the same state agree in everything an instruction may read; the worlds differ.
  have hagree : Agree (twinMatching worldOk worldOk') cpu.stepCore cpu'.stepCore := {
    user := hcpu.user.privilege
    user' := hcpu'.user.privilege
    registers := congrArg CPUState.registers hstate
    flags := congrArg CPUState.flags hstate
    sp := congrArg CPUState.sp hstate
    halted := congrArg CPUState.halted hstate
    hasError := congrArg CPUState.hasError hstate
    errorMessage := fun _ => congrArg CPUState.errorMessage hstate
    kernel_sp := hcpu.user.kernel_sp.trans hcpu'.user.kernel_sp.symm
    idle := hcpu.user.kernel_stack_idle
    idle' := hcpu'.user.kernel_stack_idle
    memory_size := hcpu.user.memory_size
    memory_size' := hcpu'.user.memory_size
    memory := fun i _ => congrArg (fun state => state.memory.byteAt i) hstate
    pc := (congrArg CPUState.pc hstate).symm
    world := ⟨hcpu.user.world, hcpu'.user.world⟩ }
  rw [CPU.step_core_withoutClock hrun hpending, CPU.step_core_withoutClock hrun' hpending',
    hcpu.setup, hcpu'.setup]
  exact twin_state_eq (twin_instructionPart h h' hagree hstate)

end Twins

/-! ## A process on any machine -/

section Own

variable {worldOk : W → Prop} {base : Setup W} {image : ProcessImage} {cpu : CPU W}

/-- A process of any machine could be on a CPU of its own. -/
theorem Resident.own (h : Resident worldOk base image cpu) :
    Resident Unvectored bareSetup image (ownCpu image cpu.core.state) where
  valid := h.valid
  setup := rfl
  user := { h.user with
    kernel_stack_idle := rfl
    kernel_sp := rfl
    world := fun _ => rfl }

/-- Up to the clock, a step takes a process where it goes by itself. -/
theorem Resident.step_state [LongDouble] (hm : Secluded worldOk base)
    (h : Resident worldOk base image cpu) (hrun : ¬ cpu.Stopped) :
    cpu.withoutClock.step.core.state = ownStep image cpu.core.state :=
  twin_step hm secluded_bareSetup h h.own rfl hrun

end Own

/-! ## The end of a process -/

/-- Only a host handler makes an exit request. -/
theorem exitRequest_trapClosed :
    Core.TrapClosed (fun core : Core W => core.processExitRequest = none) where
  assign h _ := h
  world _ h := h
  moveSp _ h := h
  store _ _ h := h
  trap _ _ _ _ _ h := h

/-- Only a host handler requests an exit. -/
theorem exitRequest_of_step [LongDouble] {cpu : CPU W}
    (hhandler : cpu.setup.softwareInterruptHandler = none)
    (h : cpu.core.processExitRequest = none) : cpu.step.core.processExitRequest = none := by
  by_cases hstopped : cpu.Stopped
  · rwa [CPU.step_of_stopped hstopped]
  · refine exitRequest_trapClosed.step ?_ ?_ hstopped h
    · rintro ⟨message | u, core⟩ hcore
      · exact hcore
      · exact hcore
    · intro vector returnAddress
      rw [CPU.serviceHostSoftwareInterrupt, hhandler]
      exact Keeps.pure _

/-- A process has ended in the state `final` of its own. -/
structure EndsIn (normalExitCode faultExitCode : Word) (final : CPUState)
    (process : ProcessControlBlock) : Prop where
  terminated : process.state = .Terminated
  hasExitCode : process.hasExitCode = true
  exitCode : process.exitCode = if final.hasError then faultExitCode else normalExitCode
  kind : process.terminationKind = if final.hasError then .CpuFault else .NormalExit
  message : process.terminationMessage = if final.hasError then final.errorMessage else []
  registers : process.context.registers = final.registers
  flags : process.context.flags = final.flags.bits
  pc : process.context.pc = final.pc
  sp : process.context.sp = final.sp
  kernel_stack_pointer : process.context.kernel_stack_pointer = MemoryMap.kKernelStackBase
  memory : process.addressSpace.memory = final.memory

namespace ProcessLifecycleManager

open TimerPreemptiveScheduler

variable {H : Type} {rt after : Runtime H} {result : ProcessLifecycleStepResult}

/-- With no exit requested, the CPU alone says how the process on it ends. -/
theorem endsIn_of_terminateRunning {staged : ProcessTable} (hinv : rt.table.Invariant)
    (hne : rt.table.running_pid ≠ 0) (hexit : rt.cpu.core.processExitRequest = none)
    (hkernel : rt.cpu.core.kernelStackPointer = MemoryMap.kKernelStackBase)
    (h : terminateRunning rt rt.table.running_pid (contextOf rt.table.running_pid rt.cpu)
      = .ok staged) :
    ∃ process, staged.processes.find? rt.table.running_pid = some process
      ∧ EndsIn rt.lifecycle.normal_exit_code rt.lifecycle.fault_exit_code rt.cpu.core.state process := by
  obtain ⟨old, exitCode, kind, message, -, hends, -, -, hfind⟩ := terminateRunning_spec hinv hne h
  refine ⟨_, (hfind _).trans (if_pos rfl), ?_⟩
  obtain ⟨hcode, hkind, hmessage⟩ : exitCode = (if rt.cpu.core.state.hasError then
        rt.lifecycle.fault_exit_code else rt.lifecycle.normal_exit_code)
      ∧ kind = (if rt.cpu.core.state.hasError then .CpuFault else .NormalExit)
      ∧ message = if rt.cpu.core.state.hasError then rt.cpu.core.state.errorMessage else [] := by
    cases herror : rt.cpu.core.state.hasError with
    | true => exact hends.fault herror
    | false =>
      have hnormal := hends.normal herror
      rw [hexit] at hnormal
      exact hnormal
  exact ⟨rfl, rfl, hcode, hkind, hmessage, rfl, rfl, rfl, rfl, hkernel, rfl⟩

/-- The process that a step ends is left in the state that the CPU has stopped in. -/
theorem endsIn_of_terminates (hinv : rt.table.Invariant) (hne : rt.table.running_pid ≠ 0)
    (hexit : rt.cpu.core.processExitRequest = none)
    (hkernel : rt.cpu.core.kernelStackPointer = MemoryMap.kKernelStackBase)
    (h : Terminates rt result after) :
    ∃ process, after.table.processes.find? rt.table.running_pid = some process
      ∧ EndsIn rt.lifecycle.normal_exit_code rt.lifecycle.fault_exit_code rt.cpu.core.state process := by
  cases h with
  | last captured terminated alone => exact endsIn_of_terminateRunning hinv hne hexit hkernel terminated
  | @switches staged next d captured terminated ready dispatched ne =>
    obtain ⟨process, hprocess, hends⟩ := endsIn_of_terminateRunning hinv hne hexit hkernel terminated
    obtain ⟨-, -, -, -, -, -, hstaged, -, -⟩ := terminateRunning_spec hinv hne terminated
    have hkept := endsAtMost_dispatchNext (d := ⟨rt.cpu, staged, rt.scheduler⟩) hstaged dispatched
    exact ⟨process, hkept.kept _ process hprocess hends.terminated, hends⟩

/-- What a step from `rt` ends, if it finds no request due: the running process in the state that the
CPU has stopped in, if it has stopped. -/
structure EndsRunning [LongDouble] (rt : Runtime H) (result : ProcessLifecycleStepResult)
    (after : Runtime H) : Prop where
  table : EndsAtMost rt.table
    (if result.process_terminated then some rt.table.running_pid else none) after.table
  stopped : result.process_terminated = true ↔ Stopped rt.cpu.step
  ended : result.process_terminated = true → ∃ process,
    after.table.processes.find? rt.table.running_pid = some process
      ∧ EndsIn rt.lifecycle.normal_exit_code rt.lifecycle.fault_exit_code rt.cpu.step.core.state
        process

/-- A round that ends a process ends the running one, by its own doing. -/
theorem endsRunning_of_step [LongDouble] (hinv : rt.table.Invariant)
    (hne : rt.table.running_pid ≠ 0) (hrunning : rt.lifecycle.state = .Running) (hquiet : ¬ Due rt)
    (hexit : rt.cpu.step.core.processExitRequest = none)
    (hkernel : rt.cpu.step.core.kernelStackPointer = MemoryMap.kKernelStackBase)
    (h : LifecycleStep rt result after) : EndsRunning rt result after := by
  obtain ⟨moved, preempted, hmoved, hstops, -, haccounts⟩ := accounts_of_step hinv hne hrunning h
  obtain ⟨-, rfl⟩ := hmoved.resolve_left fun hdue => hquiet hdue.1
  have hinv' : (stepped rt).table.Invariant := hinv
  have hne' : (stepped rt).table.running_pid ≠ 0 := hne
  refine ⟨haccounts.table, ⟨fun hended => ?_, hstops hquiet⟩, fun hended => ?_⟩
  · cases h with
    | terminates quiet stopped terminates => exact stopped
    | _ => exact Bool.noConfusion hended
  · cases h with
    | terminates quiet stopped terminates =>
      exact endsIn_of_terminates hinv' hne' hexit hkernel terminates
    | _ => exact Bool.noConfusion hended

/-- What a run without host calls keeps of its lifecycle: the exit codes, and that no exit has been
requested. -/
structure Plain (normalExitCode faultExitCode : Word) (rt : Runtime H) : Prop where
  normal : rt.lifecycle.normal_exit_code = normalExitCode
  fault : rt.lifecycle.fault_exit_code = faultExitCode
  exitRequest : rt.cpu.core.processExitRequest = none

variable {normalExitCode faultExitCode : Word}

/-- A preemption keeps a runtime plain. -/
theorem Plain.preempts {selected : ProcessId} (hinv : rt.table.Invariant)
    (h : Plain normalExitCode faultExitCode rt) (hpreempts : Preempts rt selected after) :
    Plain normalExitCode faultExitCode after := by
  obtain ⟨d, request, controller, hd, -, rfl⟩ := hpreempts.switch
  have hcalls := sameCalls_of_dispatchNext (d := ⟨rt.cpu, rt.table, rt.scheduler⟩) hinv hd
  exact ⟨h.normal, h.fault, hcalls.exitRequest h.exitRequest⟩

/-- Clearing an exit request makes none. -/
theorem exitRequest_clearExit (stopped cpu : CPU (Board H)) (h : cpu.core.processExitRequest = none) :
    (clearExit stopped cpu).core.processExitRequest = none := by
  rw [clearExit]
  split_ifs
  · rfl
  · exact h

/-- Ending a process keeps a runtime plain. -/
theorem Plain.terminates (hinv : rt.table.Invariant) (hne : rt.table.running_pid ≠ 0)
    (h : Plain normalExitCode faultExitCode rt) (hterminates : Terminates rt result after) :
    Plain normalExitCode faultExitCode after := by
  cases hterminates with
  | last => exact ⟨h.normal, h.fault, exitRequest_clearExit rt.cpu rt.cpu h.exitRequest⟩
  | @switches staged next d captured terminated ready dispatched ne =>
    obtain ⟨-, -, -, -, -, -, hstaged, -, -⟩ := terminateRunning_spec hinv hne terminated
    have hcalls := sameCalls_of_dispatchNext (d := ⟨rt.cpu, staged, rt.scheduler⟩) hstaged dispatched
    exact ⟨h.normal, h.fault, exitRequest_clearExit rt.cpu d.cpu (hcalls.exitRequest h.exitRequest)⟩

/-- A round keeps a runtime plain. -/
theorem Plain.lifecycleStep [LongDouble] (hinv : rt.table.Invariant)
    (hne : rt.table.running_pid ≠ 0) (hhandler : rt.cpu.setup.softwareInterruptHandler = none)
    (h : Plain normalExitCode faultExitCode rt) (hstep : LifecycleStep rt result after) :
    Plain normalExitCode faultExitCode after := by
  have hstepped : Plain normalExitCode faultExitCode (stepped rt) :=
    ⟨h.normal, h.fault, exitRequest_of_step hhandler h.exitRequest⟩
  have hinv' : (stepped rt).table.Invariant := hinv
  have hne' : (stepped rt).table.running_pid ≠ 0 := hne
  cases hstep with
  | early preempts => exact h.preempts hinv preempts
  | late quiet goesOn preempts => exact hstepped.preempts hinv' preempts
  | plain => exact hstepped
  | terminates quiet stopped terminates => exact hstepped.terminates hinv' hne' terminates

/-- A lifecycle that completes leaves no process that could run. -/
theorem allTerminated_of_completed [LongDouble] (hinv : rt.table.Invariant)
    (hne : rt.table.running_pid ≠ 0) (hrunning : rt.lifecycle.state = .Running)
    (hstep : LifecycleStep rt result after) (hcompleted : result.state = .Completed) {pid : ProcessId}
    {process : ProcessControlBlock} (hp : after.table.processes.find? pid = some process) :
    process.state = .Terminated := by
  -- Only the end of the last process completes the runtime.
  cases hstep with
  | early preempts =>
    obtain ⟨d, request, controller, hd, -, rfl⟩ := preempts.switch
    exact absurd (hrunning.symm.trans hcompleted) ProcessRuntimeState.noConfusion
  | late quiet goesOn preempts =>
    obtain ⟨d, request, controller, hd, -, rfl⟩ := preempts.switch
    exact absurd (hrunning.symm.trans hcompleted) ProcessRuntimeState.noConfusion
  | plain => exact absurd (hrunning.symm.trans hcompleted) ProcessRuntimeState.noConfusion
  | terminates quiet stopped terminates =>
    have hinv' : (stepped rt).table.Invariant := hinv
    have hne' : (stepped rt).table.running_pid ≠ 0 := hne
    cases terminates with
    | switches => exact ProcessRuntimeState.noConfusion hcompleted
    | @last staged captured terminated alone =>
      obtain ⟨-, -, -, -, -, -, hstaged, hnone, -⟩ := terminateRunning_spec hinv' hne' terminated
      -- A blocked process would make it a deadlock.
      have hblocked : staged.processIdsInState .Blocked = [] := by
        by_contra hsome
        have hstate : classifyWithoutRunning staged = .Deadlocked := by
          rw [classifyWithoutRunning, alone, List.isEmpty_eq_false_iff.mpr hsome]
          rfl
        exact ProcessRuntimeState.noConfusion (hstate.symm.trans hcompleted)
      have hnot : ∀ state, staged.processIdsInState state = [] → process.state ≠ state := by
        intro state hnil hstate
        have hmem : pid ∈ staged.processIdsInState state :=
          ProcessTable.mem_processIdsInState.mpr ⟨process, hp, hstate⟩
        rw [hnil] at hmem
        exact List.not_mem_nil hmem
      cases hstate : process.state with
      | Terminated => rfl
      | Ready => exact absurd hstate (hnot .Ready alone)
      | Blocked => exact absurd hstate (hnot .Blocked hblocked)
      | Running =>
        have hon := (hstaged.running pid).mpr ⟨process, hp, hstate⟩
        exact absurd (hon.1.symm.trans hnone) hon.2

end ProcessLifecycleManager

end ZeroCpu.Kernel
