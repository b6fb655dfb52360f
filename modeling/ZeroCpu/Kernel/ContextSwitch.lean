import ZeroCpu.Kernel.RoundRobin

/-!
# Context switches

Reference: `src/kernel/ProcessDispatcher.cpp`.

`dispatchNext` saves the running process, selects the next one, loads its executable and memory into
the CPU and puts its context back, all on copies. `Switched` says what is on the CPU and in the table
once it returns, for a CPU and a table in any state.
-/

namespace ZeroCpu.Kernel

open Library

variable {W : Type}

/-! ## What a process leaves on the CPU -/

/-- What is connected to a CPU, and its trace. -/
structure SameConnections (cpu cpu' : CPU W) : Prop where
  trace : cpu'.trace = cpu.trace
  mmioBus : cpu'.setup.mmioBus = cpu.setup.mmioBus
  clockedDevices : cpu'.setup.clockedDevices = cpu.setup.clockedDevices
  interruptController : cpu'.setup.interruptController = cpu.setup.interruptController
  softwareInterruptHandler :
    cpu'.setup.softwareInterruptHandler = cpu.setup.softwareInterruptHandler
  world : cpu'.core.world = cpu.core.world

/-- The CPU is in the given context and memory, ready to go on. -/
structure Holds (cpu : CPU W) (context : ProcessContext) (memory : Memory) : Prop where
  registers : cpu.core.state.registers = context.registers
  flags : cpu.core.state.flags.bits = context.flags
  pc : cpu.core.state.pc = context.pc
  sp : cpu.core.state.sp = context.sp
  privilege : cpu.core.state.privilegeLevel = context.privilege
  has_user_code_range : cpu.setup.hasUserCodeRange = context.has_user_code_range
  user_code_range : context.has_user_code_range = true →
    cpu.setup.userCodeBegin = context.user_code_begin
      ∧ cpu.setup.userCodeEndExclusive = context.user_code_end_exclusive
  kernel_stack_pointer : cpu.core.kernelStackPointer = context.kernel_stack_pointer
  memory : cpu.core.state.memory = memory
  not_halted : cpu.core.state.halted = false
  no_error : cpu.core.state.hasError = false

/-- Connections are kept through two switches. -/
theorem SameConnections.trans {cpu cpu' cpu'' : CPU W} (h : SameConnections cpu cpu')
    (h' : SameConnections cpu' cpu'') : SameConnections cpu cpu'' where
  trace := h'.trace.trans h.trace
  mmioBus := h'.mmioBus.trans h.mmioBus
  clockedDevices := h'.clockedDevices.trans h.clockedDevices
  interruptController := h'.interruptController.trans h.interruptController
  softwareInterruptHandler := h'.softwareInterruptHandler.trans h.softwareInterruptHandler
  world := h'.world.trans h.world

/-- Activating an address space brings in its memory. -/
theorem activate_spec {space : ProcessAddressSpace} {cpu cpu' : CPU W} {u : Unit}
    (h : space.activate cpu = (.ok u, cpu')) :
    SameConnections cpu cpu' ∧ cpu'.core.state.memory = space.memory := by
  rw [ProcessAddressSpace.activate, Exec.staged_eq_ok, Exec.lift_bind_eq_ok] at h
  obtain ⟨_, -, h⟩ := h
  cases hprogram : space.executable with
  | none =>
    rw [hprogram] at h
    have hcpu := Exec.modify_eq_ok.mp h
    rw [← hcpu]
    exact ⟨⟨rfl, rfl, rfl, rfl, rfl, rfl⟩, rfl⟩
  | some program =>
    simp only [hprogram, CPU.loadBinaryProgram, bind_assoc, ↓Exec.get_bind_eq_ok,
      ↓Exec.modify_bind_eq_ok, ↓Exec.lift_bind_eq_ok] at h
    obtain ⟨loaded, -, h⟩ := h
    have hcpu := Exec.modify_eq_ok.mp h
    rw [← hcpu]
    exact ⟨⟨rfl, rfl, rfl, rfl, rfl, rfl⟩, rfl⟩

/-- Restoring a context puts all of it on the CPU. -/
theorem restoreProcessContext_spec {context : ProcessContext} {cpu cpu' : CPU W} {u : Unit}
    (h : restoreProcessContext context cpu = (.ok u, cpu')) :
    SameConnections cpu cpu' ∧ Holds cpu' context cpu.core.state.memory := by
  simp only [restoreProcessContext, ↓Exec.get_bind_eq_ok, ↓Exec.lift_bind_eq_ok] at h
  obtain ⟨_, -, _, -, h⟩ := h
  cases hrange : context.has_user_code_range with
  | true =>
    simp only [hrange, if_true, CPU.setUserCodeRange, CPU.setKernelStackPointer, bind_assoc,
      ↓Exec.get_bind_eq_ok, ↓Exec.lift_bind_eq_ok, ↓Exec.modify_bind_eq_ok,
      ↓Exec.require_bind_eq_ok, Exec.modify_eq_ok] at h
    obtain ⟨_, -, -, _, -, rfl⟩ := h
    exact ⟨⟨rfl, rfl, rfl, rfl, rfl, rfl⟩,
      ⟨rfl, rfl, rfl, rfl, rfl, hrange.symm, fun _ => ⟨rfl, rfl⟩, rfl, rfl, rfl, rfl⟩⟩
  | false =>
    simp only [hrange, Bool.false_eq_true, if_false, CPU.clearUserCodeRange,
      CPU.setKernelStackPointer, bind_assoc, ↓Exec.get_bind_eq_ok, ↓Exec.lift_bind_eq_ok,
      ↓Exec.modify_bind_eq_ok, ↓Exec.require_bind_eq_ok, Exec.modify_eq_ok] at h
    obtain ⟨-, _, -, rfl⟩ := h
    refine ⟨⟨rfl, rfl, rfl, rfl, rfl, rfl⟩,
      ⟨rfl, rfl, rfl, rfl, rfl, hrange.symm, fun h => ?_, rfl, rfl, rfl, rfl⟩⟩
    rw [hrange] at h
    cases h

/-- Resuming a process puts its context and memory on the CPU. -/
theorem resume_spec {selected : ProcessControlBlock} {d d' : Dispatch W} {u : Unit}
    (h : resume selected d = (.ok u, d')) :
    SameConnections d.cpu d'.cpu ∧ Holds d'.cpu selected.context selected.addressSpace.memory
      ∧ d'.table = d.table := by
  simp only [resume, Exec.bind_eq_ok, Exec.zoom_eq_ok, Exec.get_apply, Exec.lift_eq_ok] at h
  obtain ⟨_, _, ⟨loaded, hload, rfl⟩, _, _, hget, _, _, ⟨-, rfl⟩, restored, hrestore, rfl⟩ := h
  obtain ⟨-, rfl⟩ := Prod.ext_iff.mp hget
  obtain ⟨hsame, hmemory⟩ := activate_spec hload
  obtain ⟨hsame', hholds⟩ := restoreProcessContext_spec hrestore
  rw [← hmemory]
  exact ⟨hsame.trans hsame', hholds, rfl⟩

/-! ## Saving the running process -/

/-- A process of the table once the running one has been saved from the CPU. -/
def savedFrom (cpu : CPU W) (pid : ProcessId) (process : ProcessControlBlock) :
    ProcessControlBlock :=
  if process.state = .Running then { process with
    context := contextOf pid cpu
    addressSpace := { process.addressSpace with memory := cpu.core.state.memory } }
  else process

/-- Saving changes the running process of the table and nothing else. -/
theorem saveRunning_spec {d d' : Dispatch W} {u : Unit} (hinv : d.table.Invariant)
    (h : saveRunning d = (.ok u, d')) :
    d'.cpu = d.cpu ∧ d'.scheduler = d.scheduler ∧ d'.table.Invariant
      ∧ ∀ pid, d'.table.processes.find? pid
        = (d.table.processes.find? pid).map (savedFrom d.cpu pid) := by
  rw [saveRunning, Exec.get_bind_eq_ok] at h
  cases hrun : d.table.hasRunningProcess with
  | false =>
    rw [hrun, if_neg nofun, Exec.pure_eq_ok] at h
    obtain ⟨-, rfl⟩ := h
    refine ⟨rfl, rfl, hinv, fun pid => ?_⟩
    cases hp : d.table.processes.find? pid with
    | none => rfl
    | some process =>
      -- A Running process would be `running_pid`.
      have hstate : process.state ≠ .Running := by
        intro hstate
        obtain ⟨heq, hne⟩ := (hinv.running pid).mpr ⟨process, hp, hstate⟩
        rw [ProcessTable.hasRunningProcess_iff.mpr (heq ▸ hne)] at hrun
        cases hrun
      rw [Option.map_some, savedFrom, if_neg hstate]
  | true =>
    have hne := ProcessTable.hasRunningProcess_iff.mp hrun
    simp only [hrun, if_true, ↓Exec.lift_bind_eq_ok, Exec.modify_eq_ok] at h
    obtain ⟨pid, hpid, context, hcontext, table', htable', rfl⟩ := h
    have hrunning : d.table.running_pid = pid := by
      simp only [ProcessTable.runningProcessId, hrun, bind_eq_ok] at hpid
      obtain ⟨_, -, hpid⟩ := hpid
      exact Except.ok.inj hpid
    obtain rfl : contextOf pid d.cpu = context := by
      simp only [captureProcessContext, captureProcessContextSnapshot, bind_eq_ok] at hcontext
      obtain ⟨_, ⟨_, -, _, -, hs⟩, _, -, hc⟩ := hcontext
      exact (Except.ok.inj hs).trans (Except.ok.inj hc)
    refine ⟨rfl, rfl, hinv.updateRuntimeState htable', fun other => ?_⟩
    obtain ⟨process, hp, hstate⟩ := (hinv.running pid).mp ⟨hrunning, hrunning ▸ hne⟩
    simp only [ProcessTable.updateRuntimeState, ProcessTable.process_eq_ok.mpr hp, ok_bind,
      ProcessControlBlock.replaceRuntimeState, ProcessAddressSpace.replaceMemory, bind_eq_ok]
      at htable'
    obtain ⟨updated, ⟨_, -, _, -, _, -, space, ⟨_, -, hspace⟩, hupdated⟩, htable'⟩ := htable'
    rw [← Except.ok.inj htable', ← Except.ok.inj hupdated, ← Except.ok.inj hspace]
    refine (ProcessTable.Invariant.find?_setProcess hp _ other).trans ?_
    by_cases heq : other = pid
    · rw [if_pos heq, heq, hp, Option.map_some, savedFrom, if_pos hstate]
    · rw [if_neg heq]
      cases hother : d.table.processes.find? other with
      | none => rfl
      | some process' =>
        have hstate' : process'.state ≠ .Running := fun hr =>
          heq ((hinv.running_pid_eq hother hr).symm.trans hrunning)
        rw [Option.map_some, savedFrom, if_neg hstate']

/-! ## The switch -/

/-- What a context switch from `d` to the process `selected` has done once it returns. -/
structure Switched (d : Dispatch W) (selected : ProcessId) (d' : Dispatch W) : Prop where
  /-- The process that was Running is stored as it was on the CPU. -/
  saved : ∀ pid process, d.table.processes.find? pid = some process → process.state = .Running →
    ∃ process', d'.table.processes.find? pid = some process'
      ∧ process'.context = contextOf pid d.cpu
      ∧ process'.addressSpace.memory = d.cpu.core.state.memory
  /-- The selected process is on the CPU as it is stored. -/
  restored : ∃ process, d'.table.processes.find? selected = some process
    ∧ Holds d'.cpu process.context process.addressSpace.memory
  /-- A selected process that was not Running is stored as it was. -/
  stored : ∀ process, d.table.processes.find? selected = some process → process.state ≠ .Running →
    ∃ process', d'.table.processes.find? selected = some process'
      ∧ process'.context = process.context ∧ process'.addressSpace = process.addressSpace
  connections : SameConnections d.cpu d'.cpu
  running : ∀ pid, (∃ process, d'.table.processes.find? pid = some process
    ∧ process.state = .Running) ↔ pid = selected
  others : ∀ pid, pid ≠ selected →
    (∀ process, d.table.processes.find? pid = some process → process.state ≠ .Running) →
    d'.table.processes.find? pid = d.table.processes.find? pid

/-- A selection is one of the table's processes, handed the CPU. -/
theorem scheduleNext_spec {table : ProcessTable} {scheduler : RoundRobinScheduler}
    {selected : ProcessId} {s : ProcessTable × RoundRobinScheduler} (hinv : table.Invariant)
    (h : RoundRobinScheduler.scheduleNext (table, scheduler) = (.ok selected, s)) :
    table.Runnable selected ∧ Handover table selected s.1 := by
  have hperm := Cyclic.rotateAfter_perm (RoundRobinScheduler.candidates table)
    (scheduler.cursor? table)
  cases hrotate : Cyclic.rotateAfter (RoundRobinScheduler.candidates table)
      (scheduler.cursor? table) with
  | nil =>
    rw [hrotate] at hperm
    rw [RoundRobinScheduler.scheduleNext_error hperm.symm.eq_nil] at h
    cases (Prod.ext_iff.mp h).1
  | cons first rest =>
    obtain ⟨table', hschedule, hover⟩ := RoundRobinScheduler.scheduleNext_eq hinv hrotate
    rw [hschedule] at h
    obtain ⟨hfirst, rfl⟩ := Prod.ext_iff.mp h
    obtain rfl : first = selected := Except.ok.inj hfirst
    rw [hrotate] at hperm
    have hmem := hperm.mem_iff.mp List.mem_cons_self
    exact ⟨((RoundRobinScheduler.candidates_spec hinv).2 first).mp hmem, hover⟩

/-- The steps of a switch that returns. -/
theorem dispatchNext_eq_ok {d d' : Dispatch W} {selected : ProcessId}
    (h : dispatchNext d = (.ok selected, d')) :
    ∃ (saved : Dispatch W) (s : ProcessTable × RoundRobinScheduler) (process : ProcessControlBlock),
      saveRunning d = (.ok (), saved)
      ∧ RoundRobinScheduler.scheduleNext (saved.table, saved.scheduler) = (.ok selected, s)
      ∧ s.1.processes.find? selected = some process
      ∧ resume process { saved with table := s.1, scheduler := s.2 } = (.ok (), d') := by
  rw [dispatchNext, Exec.get_bind_eq_ok, Exec.require_bind_eq_ok, Exec.require_bind_eq_ok,
    Exec.staged_eq_ok, Exec.bind_eq_ok] at h
  obtain ⟨-, -, ⟨⟩, saved, hsaved, h⟩ := h
  rw [Exec.bind_eq_ok] at h
  obtain ⟨pid, _, hzoom, h⟩ := h
  obtain ⟨s, hschedule, rfl⟩ := Exec.zoom_eq_ok.mp hzoom
  rw [Exec.get_bind_eq_ok, Exec.lift_bind_eq_ok] at h
  obtain ⟨process, hprocess, h⟩ := h
  rw [Exec.bind_eq_ok] at h
  obtain ⟨⟨⟩, d'', hresume, h⟩ := h
  obtain ⟨rfl, rfl⟩ := Exec.pure_eq_ok.mp h
  exact ⟨saved, s, process, hsaved, hschedule, ProcessTable.process_eq_ok.mp hprocess, hresume⟩

/-- A context switch that throws changes nothing. -/
theorem dispatchNext_error {d d' : Dispatch W} {e : Str} (h : dispatchNext d = (.error e, d')) :
    d' = d := by
  rw [dispatchNext, Exec.bind_apply, Exec.get_apply] at h
  dsimp only at h
  rw [Exec.bind_apply, Exec.require_apply] at h
  split_ifs at h
  · dsimp only at h
    rw [Exec.bind_apply, Exec.require_apply] at h
    split_ifs at h
    · exact Exec.staged_error h
    · exact (Prod.ext_iff.mp h).2.symm
  · exact (Prod.ext_iff.mp h).2.symm

/-- What the table holds after the switch, process by process. -/
theorem find?_of_dispatchNext {d d' : Dispatch W} {selected : ProcessId} (hinv : d.table.Invariant)
    (h : dispatchNext d = (.ok selected, d')) :
    d'.table.Invariant ∧ d'.table.running_pid = selected
      ∧ (∃ process, d'.table.processes.find? selected = some process
        ∧ Holds d'.cpu process.context process.addressSpace.memory)
      ∧ SameConnections d.cpu d'.cpu
      ∧ ∀ pid, d'.table.processes.find? pid
        = (d.table.processes.find? pid).map (handedOver selected pid ∘ savedFrom d.cpu pid) := by
  obtain ⟨saved, s, process, hsaved, hschedule, hprocess, hresume⟩ := dispatchNext_eq_ok h
  obtain ⟨hcpu, -, hinv', hfind⟩ := saveRunning_spec hinv hsaved
  obtain ⟨-, hover⟩ := scheduleNext_spec hinv' hschedule
  obtain ⟨hsame, hholds, htable⟩ := resume_spec hresume
  rw [htable]
  refine ⟨hover.invariant, hover.running, ⟨process, hprocess, hholds⟩, hcpu ▸ hsame, fun pid => ?_⟩
  rw [hover.find, hfind, Option.map_map]

/-- A context switch is faithful and all or nothing. -/
theorem context_switch_faithful {d : Dispatch W} (hinv : d.table.Invariant) :
    (∀ e d', dispatchNext d = (.error e, d') → d' = d)
    ∧ ∀ selected d', dispatchNext d = (.ok selected, d') → Switched d selected d' := by
  refine ⟨fun e d' h => dispatchNext_error h, fun selected d' h => ?_⟩
  obtain ⟨hinv', hrunning, hrestored, hsame, hfind⟩ := find?_of_dispatchNext hinv h
  refine ⟨fun pid process hp hstate => ?_, hrestored, fun process hp hstate => ?_, hsame,
    fun pid => ?_, fun pid hne hother => ?_⟩
  · refine ⟨_, (hfind pid).trans (by rw [hp, Option.map_some]), ?_⟩
    rw [Function.comp_apply, savedFrom, if_pos hstate, handedOver]
    split_ifs <;> exact ⟨rfl, rfl⟩
  · refine ⟨_, (hfind selected).trans (by rw [hp, Option.map_some]), ?_⟩
    rw [Function.comp_apply, savedFrom, if_neg hstate, handedOver, if_pos rfl]
    exact ⟨rfl, rfl⟩
  · rw [← hinv'.running pid, hrunning]
    obtain ⟨process, hp, -⟩ := hrestored
    constructor
    · exact fun h => h.1.symm
    · rintro rfl
      exact ⟨rfl, (hinv'.entry hp).pid_ne⟩
  · rw [hfind]
    cases hp : d.table.processes.find? pid with
    | none => rfl
    | some process =>
      rw [Option.map_some, Function.comp_apply, savedFrom, if_neg (hother process hp), handedOver,
        if_neg hne, if_neg (hother process hp)]

/-- A fresh CPU with nothing connected, next to a table. -/
def freshDispatch (table : ProcessTable) : Dispatch Unit := ⟨CPU.new (), table, .initial⟩

/-- What the first process has done when the second gets its turn. -/
def goneOn (state : CPUState) : CPUState :=
  { state with registers := state.registers.set .R3 77, pc := state.pc + 24 }

/-- The first of two processes is on the CPU, has a value in R3 and has gone on by a step. -/
def runningDispatch : Dispatch Unit :=
  let d := (dispatchNext (freshDispatch SchedulingEvent.twoProcesses)).2
  { d with cpu := { d.cpu with core := d.cpu.core.updateState goneOn } }

/-- The table of the running dispatch keeps the invariant. -/
theorem invariant_runningDispatch : runningDispatch.table.Invariant := by
  have hinv := SchedulingEvent.invariant_twoProcesses
  unfold runningDispatch
  generalize SchedulingEvent.twoProcesses = table at hinv ⊢
  cases hdispatch : dispatchNext (freshDispatch table) with
  | mk result d' =>
    cases result with
    | error e =>
      rw [dispatchNext_error hdispatch]
      exact hinv
    | ok selected => exact (find?_of_dispatchNext (d := freshDispatch table) hinv hdispatch).1

/-- The second process gets the CPU, and the first is stored with what the CPU had. -/
theorem context_switch_faithful_second :
    ∃ d' process, dispatchNext runningDispatch = (.ok 2, d') ∧ Switched runningDispatch 2 d'
      ∧ d'.table.processes.find? 1 = some process ∧ process.context.registers .R3 = 77
      ∧ process.context.pc = 24 := by
  have hselected : (dispatchNext runningDispatch).1.toOption = some 2 := by decide +kernel
  have hrunning : (runningDispatch.table.processes.find? 1).map (fun process =>
      (process.state, runningDispatch.cpu.core.state.registers .R3,
        runningDispatch.cpu.core.state.pc)) = some (.Running, 77, 24) := by decide +kernel
  cases hdispatch : dispatchNext runningDispatch with
  | mk result d' =>
    rw [hdispatch] at hselected
    cases result with
    | error e => cases hselected
    | ok selected =>
      obtain rfl : selected = 2 := Option.some.inj hselected
      have hswitched := (context_switch_faithful invariant_runningDispatch).2 2 d' hdispatch
      obtain ⟨process, hprocess, hfacts⟩ := Option.map_eq_some_iff.mp hrunning
      simp only [Prod.mk.injEq] at hfacts
      obtain ⟨hstate, hvalue, hpc⟩ := hfacts
      obtain ⟨process', hstored, hcontext, -⟩ := hswitched.saved 1 process hprocess hstate
      refine ⟨d', process', rfl, hswitched, hstored, ?_, ?_⟩
      · rw [hcontext]
        exact hvalue
      · rw [hcontext]
        exact hpc

end ZeroCpu.Kernel
