import ZeroCpu.Kernel.LiveState
import ZeroCpu.Kernel.Residency
import ZeroCpu.Kernel.UserSyscalls
import ZeroCpu.System.Rounds

/-!
# The process on the CPU of the runner

Reference: `src/system/MultiProcessRunner.cpp`, `runImages`.

In every state that a run reaches, the running process is on the CPU, inside the confinement of its
image, and every process that can still run can be put there. The property survives a round because
a CPU step keeps the confinement or strands a call, and a runtime with a stranded call does not
return from its round.
-/

namespace ZeroCpu.Sys

open Library Kernel

variable {H : Type}

/-- Nobody has configured a vector handler. -/
def NoVectors (board : Board H) : Prop := ∀ vector, board.controller.vectorTable vector = none

/-- The handlers a run may have: none, or the dispatcher over a file system of the caller's. -/
inductive Admissible : Option (SoftwareInterruptHandler (Board H)) → Prop
  | absent : Admissible none
  | dispatcher (filesystem : Ref H ZeroFS) :
      Admissible (some (protectedSyscallDispatcher (Board.hostRef.inside filesystem)))

/-- What the runner connects to its CPU. -/
structure Connected (options : MultiProcessRunOptions H) (m : Setup (Board H)) : Prop where
  mmioBus : m.mmioBus = options.mmio_bus.map (MMIOBus.zoom Board.hostRef)
  interruptController : m.interruptController = some Board.controllerRef
  clockedDevices : m.clockedDevices = [TimerDevice.clocked Board.timerRef]
  softwareInterruptHandler : m.softwareInterruptHandler = options.software_interrupt_handler

/-! ## The CPU -/

section Cpu

variable {options : MultiProcessRunOptions H} {base : Setup (Board H)} {image : ProcessImage}
  {cpu : CPU (Board H)}

/-- A machine on which the property `worldOk` of the board holds whatever an image's process does:
only the caller's devices and the clocked devices can be reached from User code. -/
structure Carries (options : MultiProcessRunOptions H) (worldOk : Board H → Prop)
    (m : Setup (Board H)) : Prop where
  mmioBus : m.mmioBus = options.mmio_bus.map (MMIOBus.zoom Board.hostRef)
  interruptController : m.interruptController = some Board.controllerRef
  softwareInterruptHandler : m.softwareInterruptHandler = options.software_interrupt_handler
  host : ∀ host board, worldOk board → worldOk { board with host := host }
  tick : ∀ device ∈ m.clockedDevices, Exec.Keeps worldOk device.tick
  vectors : ∀ board, worldOk board → NoVectors board

variable {worldOk : Board H → Prop}

/-- A read from the bus keeps the world. -/
theorem Carries.bus_read (h : Carries options worldOk base) (bus : MMIOBus (Board H))
    (hbus : (loadedSetup base image).mmioBus = some bus) (address : ℕ) :
    Exec.Keeps worldOk (bus.read address) := by
  obtain ⟨b, -, rfl⟩ := Option.map_eq_some_iff.mp (h.mmioBus ▸ hbus)
  rw [MMIOBus.read_zoom]
  exact fun board => h.host _ board

/-- A write to the bus keeps the world. -/
theorem Carries.bus_write (h : Carries options worldOk base) (bus : MMIOBus (Board H))
    (hbus : (loadedSetup base image).mmioBus = some bus) (address : ℕ) (value : Word) :
    Exec.Keeps worldOk (bus.write address value) := by
  obtain ⟨b, -, rfl⟩ := Option.map_eq_some_iff.mp (h.mmioBus ▸ hbus)
  rw [MMIOBus.write_zoom]
  exact fun board => h.host _ board

/-- The confinement of an image fits the setup of a run. -/
theorem Carries.fits (h : Carries options worldOk base) (hv : ValidImage image) :
    (imageConfinement image worldOk).Fits (loadedSetup base image) where
  toUserSetup := userSetup_loadedSetup hv _
  frozen_outside i hi := ⟨hi.1, .inl hi.2⟩
  bus_read bus hbus address _ _ := h.bus_read bus hbus address
  bus_write bus hbus address value _ _ := h.bus_write bus hbus address value
  tick := h.tick
  no_vector := by
    intro r hr board hboard vector
    obtain rfl := Option.some.inj (h.interruptController.symm.trans hr)
    exact h.vectors board hboard vector

/-- The dispatcher fits the confinement of an image. -/
theorem Carries.syscalls (h : Carries options worldOk base) {filesystem : Ref H ZeroFS}
    (hhandler : options.software_interrupt_handler
      = some (protectedSyscallDispatcher (Board.hostRef.inside filesystem))) :
    SyscallsFit (imageConfinement image worldOk) (loadedSetup base image)
      (Board.hostRef.inside filesystem) where
  handler := h.softwareInterruptHandler.trans hhandler
  frame_free i hi := hi.2.trans (by decide)
  set_filesystem _ board := h.host _ board
  bus_read := h.bus_read
  bus_write := h.bus_write

/-- Without a host handler a step of the CPU leaves it in the hands of the process. -/
theorem Carries.step_of_absent [LongDouble] (h : Carries options worldOk base)
    (hhandler : options.software_interrupt_handler = none)
    (hresident : Resident worldOk base image cpu) : Resident worldOk base image cpu.step where
  valid := hresident.valid
  setup := (CPU.step_setup cpu).trans hresident.setup
  user := by
    have hnone : (loadedSetup base image).softwareInterruptHandler = none :=
      h.softwareInterruptHandler.trans hhandler
    exact (CPU.step_confined (h.fits hresident.valid) hnone hresident.setup hresident.user).2

/-- A step of the CPU leaves it in the hands of the process, or strands a call. -/
theorem Carries.step [LongDouble] (h : Carries options worldOk base)
    (hadmissible : Admissible options.software_interrupt_handler)
    (hresident : Resident worldOk base image cpu) :
    Resident worldOk base image cpu.step
      ∨ AtSyscall cpu ∧ cpu.step.core.state.hasError = true
        ∧ cpu.step.core.usingKernelInterruptStack = true := by
  have hsetup : cpu.step.setup = loadedSetup base image :=
    (CPU.step_setup cpu).trans hresident.setup
  generalize hhandler : options.software_interrupt_handler = handler at hadmissible
  cases hadmissible with
  | absent => exact .inl (h.step_of_absent hhandler hresident)
  | dispatcher filesystem =>
    rcases step_user (h.fits hresident.valid) (h.syscalls hhandler) hresident.setup hresident.user with
      huser | hstranded
    · exact .inl ⟨hresident.valid, hsetup, huser⟩
    · exact .inr hstranded

/-- Nobody configures a vector on the runner's CPU. -/
theorem Connected.carries (hbase : Connected options base) : Carries options NoVectors base where
  mmioBus := hbase.mmioBus
  interruptController := hbase.interruptController
  softwareInterruptHandler := hbase.softwareInterruptHandler
  host _ _ h := h
  tick := by
    intro device hdevice
    rw [hbase.clockedDevices] at hdevice
    obtain rfl := List.mem_singleton.mp hdevice
    intro board h vector
    obtain ⟨hvectors, -, -⟩ := timer_tick_controller (board.timer, board.controller)
    exact (congrFun hvectors vector).trans (h vector)
  vectors _ h := h

end Cpu

/-! ## The runtime -/

/-- The image of each process: PIDs count from one. -/
def imageAt (images : List ProcessImage) (pid : ProcessId) : Option ProcessImage := images[pid - 1]?

/-- The processes of a runtime are where they belong. -/
structure Settled (images : List ProcessImage) (base : Setup (Board H)) (rt : Runtime H) : Prop where
  invariant : rt.table.Invariant
  owned : AllOwned (imageAt images) rt.table
  shared : Shared NoVectors base rt.cpu
  resident : rt.table.running_pid ≠ 0 → ∃ image, imageAt images rt.table.running_pid = some image
    ∧ Resident NoVectors base image rt.cpu

/-- The process on the CPU can step. -/
def Going (rt : Runtime H) : Prop := rt.table.running_pid ≠ 0 → ¬ rt.cpu.Stopped

section Steps

open ProcessLifecycleManager TimerPreemptiveScheduler

variable {images : List ProcessImage} {base : Setup (Board H)} {rt rt' : Runtime H}

/-- Taking a request leaves the vector table alone. -/
theorem acknowledgeFrom_vectorTable {controller controller' : InterruptController} {vector : UInt8}
    {source : Str} {request : InterruptRequest}
    (h : controller.acknowledgeFrom vector source = .ok (request, controller')) :
    controller'.vectorTable = controller.vectorTable := by
  rw [InterruptController.acknowledgeFrom] at h
  cases hfind : controller.findDeliverableFrom vector source with
  | none =>
    rw [hfind] at h
    cases h
  | some found =>
    rw [hfind] at h
    obtain ⟨-, rfl⟩ := Prod.mk.inj (Except.ok.inj h)
    rfl

/-- A process that may be switched out is inside its code. -/
theorem pc_lt_of_not_atUserCodeEnd {image : ProcessImage} {cpu : CPU (Board H)}
    (h : Resident NoVectors base image cpu) (hend : atUserCodeEnd cpu = false) :
    cpu.core.state.pc < 512 + image.executable.code.length := by
  have hle := h.user.pc_le
  have hne : cpu.core.state.pc ≠ 512 + image.executable.code.length := by
    intro heq
    rw [atUserCodeEnd, CPUState.isUserMode, h.user.privilege, h.setup, heq] at hend
    simp [loadedSetup] at hend
  exact lt_of_le_of_ne hle hne

/-- A switch settles the runtime with the selected process on the CPU. -/
theorem Settled.switched (h : Settled images base rt) {d : Dispatch (Board H)} {selected : ProcessId}
    (hrunning : RunningResident NoVectors (imageAt images) base rt.table rt.cpu)
    (hdispatch : dispatchNext ⟨rt.cpu, rt.table, rt.scheduler⟩ = (.ok selected, d)) :
    Settled images base (Runtime.dispatchRef.set d rt) ∧ ¬ d.cpu.Stopped := by
  have hkeeps := find?_of_dispatchNext (d := ⟨rt.cpu, rt.table, rt.scheduler⟩) h.invariant hdispatch
  obtain ⟨howned, hselected, image, himage, hresident, huser⟩ :=
    dispatchNext_resident (d := ⟨rt.cpu, rt.table, rt.scheduler⟩) h.invariant h.owned h.shared hrunning
      hdispatch
  refine ⟨⟨hkeeps.1, howned, hresident.shared, fun _ => ?_⟩, ?_⟩
  · show ∃ image, imageAt images d.table.running_pid = some image ∧ _
    rw [hselected]
    exact ⟨image, himage, hresident⟩
  · rintro (hhalted | herror)
    · exact absurd (huser.not_halted.symm.trans hhalted) nofun
    · exact absurd (huser.no_error.symm.trans herror) nofun

/-- A preemption leaves the runtime settled. -/
theorem Settled.preempts (h : Settled images base rt) {selected : ProcessId}
    (hpreempts : Preempts rt selected rt') : Settled images base rt' ∧ Going rt' := by
  obtain ⟨d, request, controller, hdispatch, hack, rfl⟩ := hpreempts.switch
  have hrunning : RunningResident NoVectors (imageAt images) base rt.table rt.cpu := by
    intro hne
    obtain ⟨image, himage, hresident⟩ := h.resident hne
    exact ⟨image, himage, hresident, pc_lt_of_not_atUserCodeEnd hresident hpreempts.due.2⟩
  obtain ⟨hswitched, hgoes⟩ := h.switched hrunning hdispatch
  -- Acknowledging the request takes it out of the queue and nothing else.
  have hworld : NoVectors { d.cpu.core.world with controller := controller } := fun vector =>
    (congrFun (acknowledgeFrom_vectorTable hack) vector).trans (hswitched.shared.world vector)
  refine ⟨⟨hswitched.invariant, hswitched.owned, ⟨hswitched.shared.setup, hswitched.shared.size,
    hworld⟩, fun hne => ?_⟩, fun _ => hgoes⟩
  obtain ⟨image, himage, hresident⟩ := hswitched.resident hne
  exact ⟨image, himage, hresident.valid, hresident.setup, { hresident.user with world := hworld }⟩

/-- A stopped process whose context could be captured is inside the confinement of its image. -/
theorem resident_of_captured {image : ProcessImage} {cpu : CPU (Board H)} {pid : ProcessId}
    {context : ProcessContext}
    (h : Resident NoVectors base image cpu
      ∨ cpu.core.state.hasError = true ∧ cpu.core.usingKernelInterruptStack = true)
    (hcaptured : captureProcessContextSnapshot pid cpu = .ok context) :
    Resident NoVectors base image cpu := by
  refine h.resolve_right fun hstranded => ?_
  rw [captureProcessContextSnapshot, requireContextSwitchableCPU, hstranded.2] at hcaptured
  cases hcaptured

/-- Ending a process leaves the others as they are. -/
theorem allOwned_terminateRunning {staged : ProcessTable} {context : ProcessContext}
    (hinv : rt.table.Invariant) (hne : rt.table.running_pid ≠ 0)
    (howned : AllOwned (imageAt images) rt.table)
    (h : terminateRunning rt rt.table.running_pid context = .ok staged) :
    AllOwned (imageAt images) staged := by
  obtain ⟨_, _, _, _, -, -, -, -, hfind⟩ := terminateRunning_spec hinv hne h
  intro pid process hp hlive
  rw [hfind] at hp
  split_ifs at hp with hpid
  · obtain rfl := Option.some.inj hp
    exact absurd rfl hlive
  · exact howned pid process hp hlive

/-- With its running process ended the runtime is settled, and nothing runs. -/
theorem Settled.ended {staged : ProcessTable} {context : ProcessContext}
    (h : Settled images base rt) (hne : rt.table.running_pid ≠ 0)
    (hterminated : terminateRunning rt rt.table.running_pid context = .ok staged) :
    Settled images base { rt with table := staged } ∧ staged.running_pid = 0 := by
  obtain ⟨-, -, -, -, -, -, hstaged, hnone, -⟩ := terminateRunning_spec h.invariant hne hterminated
  exact ⟨⟨hstaged, allOwned_terminateRunning h.invariant hne h.owned hterminated, h.shared,
    fun hr => absurd hnone hr⟩, hnone⟩

/-- Ending a process leaves the runtime settled. -/
theorem Settled.terminates {result : ProcessLifecycleStepResult} (h : Settled images base rt)
    (hne : rt.table.running_pid ≠ 0) (hterminates : Terminates rt result rt') :
    Settled images base rt' ∧ Going rt' := by
  -- The exit request is cleared after the switch, on whatever CPU state is there then.
  cases hterminates with
  | @last staged captured terminated alone =>
    obtain ⟨hsettled, hnone⟩ := h.ended hne terminated
    have hshared := h.shared
    refine ⟨⟨hsettled.invariant, hsettled.owned, ?_, fun hr => absurd hnone hr⟩,
      fun hr => absurd hnone hr⟩
    rw [clearExit]
    split_ifs
    · exact ⟨hshared.setup, hshared.size, hshared.world⟩
    · exact ⟨hshared.setup, hshared.size, hshared.world⟩
  | @switches staged next d captured terminated ready dispatched ne =>
    obtain ⟨hsettled, hnone⟩ := h.ended hne terminated
    obtain ⟨hswitched, hgoes⟩ := hsettled.switched (fun hr => absurd hnone hr) dispatched
    have hshared := hswitched.shared
    refine ⟨⟨hswitched.invariant, hswitched.owned, ?_, fun hr => ?_⟩, fun _ => ?_⟩
    · rw [clearExit]
      split_ifs
      · exact ⟨hshared.setup, hshared.size, hshared.world⟩
      · exact hshared
    · obtain ⟨image, himage, hresident⟩ := hswitched.resident hr
      refine ⟨image, himage, ?_⟩
      rw [clearExit]
      split_ifs
      · exact ⟨hresident.valid, hresident.setup, { hresident.user with }⟩
      · exact hresident
    · rw [CPU.Stopped, clearExit_state]
      exact hgoes

/-- A round that returns leaves the runtime settled. -/
theorem Settled.lifecycleStep [LongDouble] {options : MultiProcessRunOptions H}
    (hbase : Connected options base) (hadmissible : Admissible options.software_interrupt_handler)
    (h : Settled images base rt) (hne : rt.table.running_pid ≠ 0)
    {result : ProcessLifecycleStepResult} (hstep : LifecycleStep rt result rt') :
    Settled images base rt' ∧ Going rt' := by
  obtain ⟨image, himage, hresident⟩ := h.resident hne
  have hstepped := hbase.carries.step hadmissible hresident
  have hsettled : Resident NoVectors base image rt.cpu.step → Settled images base (stepped rt) :=
    fun hr => ⟨h.invariant, h.owned, hr.shared, fun _ => ⟨image, himage, hr⟩⟩
  -- A stranded call is an error, so that the runtime would have to terminate the process.
  have hgoing : ¬ Stopped rt.cpu.step → Resident NoVectors base image rt.cpu.step := fun hgoes =>
    hstepped.resolve_right fun hstranded => hgoes (.inr hstranded.2.1)
  cases hstep with
  | early preempts => exact h.preempts preempts
  | late quiet goesOn preempts => exact (hsettled (hgoing goesOn)).preempts preempts
  | plain quiet goesOn quiet' =>
    exact ⟨hsettled (hgoing goesOn), fun _ => goesOn⟩
  | terminates quiet stopped terminates =>
    have hcaptured : captureProcessContextSnapshot rt.table.running_pid rt.cpu.step
        = .ok (contextOf rt.table.running_pid rt.cpu.step) := by
      cases terminates with
      | last captured => exact captured
      | switches captured => exact captured
    exact (hsettled (resident_of_captured (hstepped.imp_right And.right) hcaptured)).terminates hne terminates

/-- A process that goes on is at the end of its code when its PC is at the end of the User code. -/
theorem Settled.reachedExecutableEnd (h : Settled images base rt)
    (hne : rt.table.running_pid ≠ 0) (hgoes : ¬ rt.cpu.Stopped) :
    MultiProcessRunner.reachedExecutableEnd rt
      = .ok (rt.cpu.core.state.pc == rt.cpu.setup.userCodeEndExclusive) := by
  obtain ⟨image, himage, hresident⟩ := h.resident hne
  obtain ⟨process, hp, hstate⟩ := (h.invariant.running rt.table.running_pid).mp ⟨rfl, hne⟩
  have hlive : process.state ≠ .Terminated := by
    rw [hstate]
    exact nofun
  obtain ⟨image', himage', howned⟩ := h.owned _ process hp hlive
  obtain rfl : image = image' := Option.some.inj (himage.symm.trans himage')
  have hinside : (!rt.table.hasRunningProcess || rt.cpu.core.state.hasError) = false := by
    rw [ProcessTable.hasRunningProcess_iff.mpr hne, Bool.eq_false_iff.mpr (not_or.mp hgoes).2]
    rfl
  have hend : image.metadata.code_end_exclusive = rt.cpu.setup.userCodeEndExclusive := by
    rw [howned.valid.code_end, hresident.setup]
    rfl
  rw [MultiProcessRunner.reachedExecutableEnd, hinside, if_neg nofun,
    TimerPreemptiveScheduler.runningProcessId_eq_ok.mpr ⟨hne, rfl⟩, ok_bind,
    ProcessTable.process_eq_ok.mpr hp, ok_bind, howned.space, ← hend]
  rfl

end Steps

/-! ## Runs -/

namespace MultiProcessRunner

variable {host : H} {images : List ProcessImage} {options : MultiProcessRunOptions H}
  {base : Setup (Board H)} {s s' : RunState H}

/-- What every state of a run has in common. -/
structure Steady (images : List ProcessImage) (base : Setup (Board H)) (s : RunState H) : Prop where
  settled : Settled images base s.runtime
  state : s.runtime.lifecycle.state = s.runtimeState
  going : Going s.runtime

/-- Discarding requests leaves the vector table alone. -/
theorem discardRequests_vectorTable (vector : UInt8) (n : ℕ) (controller : InterruptController) :
    (discardRequests vector n controller).vectorTable = controller.vectorTable := by
  induction n generalizing controller with
  | zero => rfl
  | succ n ih =>
    rw [discardRequests]
    cases hack : controller.acknowledgeFrom vector TimerPreemptiveScheduler.kTimerSource with
    | error e => rfl
    | ok acknowledged =>
      obtain ⟨request, controller'⟩ := acknowledged
      exact (ih controller').trans (acknowledgeFrom_vectorTable hack)

/-- Completing a process at the end of its code only halts the CPU. -/
theorem Settled.prepared {rt rt' : Runtime H} (h : Settled images base rt)
    (hprepared : Prepared rt rt') : Settled images base rt' := by
  cases hprepared with
  | running inside => exact h
  | completed atEnd =>
    have hworld : NoVectors (discardCompletionTimerRequest rt).cpu.core.world := fun vector =>
      (congrFun (discardRequests_vectorTable _ _ _) vector).trans (h.shared.world vector)
    refine ⟨h.invariant, h.owned, ⟨h.shared.setup, h.shared.size, hworld⟩, fun hne => ?_⟩
    obtain ⟨image, himage, hresident⟩ := h.resident hne
    exact ⟨image, himage, hresident.valid, hresident.setup, { hresident.user with world := hworld }⟩

/-- A round leaves a run steady. -/
theorem Steady.iterate [LongDouble] (hbase : Connected options base)
    (hadmissible : Admissible options.software_interrupt_handler) (h : Steady images base s)
    (hrunning : s.runtimeState = .Running) (hiterate : MultiProcessRunner.iterate s = .ok s') :
    Steady images base s' := by
  obtain ⟨hne, rt, result, after, hprepared, hstep, rfl⟩ :=
    iterate_eq_ok h.settled.invariant (h.state.trans hrunning) hiterate
  have hne' : rt.table.running_pid ≠ 0 := hprepared.table.symm ▸ hne
  obtain ⟨hsettled, hgoing⟩ :=
    (Settled.prepared h.settled hprepared).lifecycleStep hbase hadmissible hne' hstep
  have hshared := hsettled.shared
  -- Recording a round clears the observation on the CPU.
  refine ⟨⟨hsettled.invariant, hsettled.owned, ⟨hshared.setup, hshared.size, hshared.world⟩,
    fun hr => ?_⟩, hstep.state, hgoing⟩
  obtain ⟨image, himage, hresident⟩ := hsettled.resident hr
  exact ⟨image, himage, hresident.valid, hresident.setup, { hresident.user with }⟩

/-- The CPU that a run starts with. -/
theorem connected_attachedCpu (host : H) (options : MultiProcessRunOptions H) (timer : TimerDevice)
    (table : ProcessTable) : Connected options (attachedCpu host options timer table).setup :=
  ⟨rfl, rfl, rfl, rfl⟩

/-- A new process owns its image. -/
theorem owned_processOf {image : ProcessImage} (hv : ValidImage image) {pid : ProcessId}
    (hpid : pid ≠ 0) : Owned image (processOf pid image) where
  valid := hv
  space := rfl
  memory := savedMemory_image hv
  context := savedContext_initialContext hv hpid
  pc_lt := initialContext_pc_lt hv pid

/-- A run starts steady. -/
theorem Booted.steady (h : Booted host images options s) :
    ∃ base, Connected options base ∧ Steady images base s := by
  obtain ⟨table, timer, selected, d, hcreated, -, hdispatch, rfl⟩ := h.started
  set rt : Runtime H := ⟨attachedCpu host options timer table, table, .initial, ⟨true, true, 0, 0⟩, {
    normal_exit_code := options.normal_exit_code
    fault_exit_code := options.fault_exit_code
    started := true
    state := .Running
    termination_count := 0
    fault_count := 0 }⟩ with hrt
  have howned : AllOwned (imageAt images) table := by
    intro pid process hp _
    obtain ⟨image, himage, rfl⟩ := hcreated.find pid process hp
    have hv := validateProcessImage_eq_ok.mp (h.valid image (List.mem_of_getElem? himage))
    exact ⟨image, himage, owned_processOf hv (hcreated.invariant.entry hp).pid_ne⟩
  have hsettled : Settled images rt.cpu.setup rt :=
    ⟨hcreated.invariant, howned, ⟨fun _ => rfl, Memory.size_ofSize _, fun _ => rfl⟩,
      fun hr => absurd hcreated.running hr⟩
  obtain ⟨hswitched, hgoes⟩ := hsettled.switched (fun hr => absurd hcreated.running hr) hdispatch
  exact ⟨rt.cpu.setup, connected_attachedCpu host options timer table, hswitched, rfl,
    fun _ => hgoes⟩

/-- Every state that a run reaches is steady. -/
theorem steady_of_runLoop [LongDouble]
    (hadmissible : Admissible options.software_interrupt_handler)
    (hboot : boot host images options = .ok s) {rounds : ℕ} (hrun : runLoop rounds s = .ok s') :
    ∃ base, Connected options base ∧ Steady images base s' := by
  obtain ⟨base, hbase, hsteady⟩ := (boot_eq_ok hboot).steady
  exact ⟨base, hbase, runLoop_induct
    (fun _ _ h hrunning hiterate => h.iterate hbase hadmissible hrunning hiterate) hsteady hrun⟩

end MultiProcessRunner

/-! ## The contract of system calls -/

/-- In every state of a run, a system call of the running process whose next instruction is in the
User code is answered, and when it does not end the process it keeps the contract. -/
theorem syscall_return_contract [LongDouble] {host : H} {images : List ProcessImage}
    {options : MultiProcessRunOptions H} {filesystem : Ref H ZeroFS}
    (hhandler : options.software_interrupt_handler
      = some (protectedSyscallDispatcher (Board.hostRef.inside filesystem)))
    {first s : MultiProcessRunner.RunState H}
    (hboot : MultiProcessRunner.boot host images options = .ok first) {rounds : ℕ}
    (hrun : MultiProcessRunner.runLoop rounds first = .ok s)
    (hprocess : s.runtime.table.running_pid ≠ 0) (hcall : AtSyscall s.runtime.cpu)
    (hend : s.runtime.cpu.core.state.pc + 24 < s.runtime.cpu.setup.userCodeEndExclusive) :
    ∃ result, s.runtime.cpu.step.core.softwareInterruptObservation
        = some ⟨ABI.kSyscallVector, result⟩
      ∧ (result.disposition ≠ .TerminateProcess →
        SyscallReturned s.runtime.cpu.core result.status s.runtime.cpu.step.core) := by
  have hadmissible : Admissible options.software_interrupt_handler := hhandler ▸ .dispatcher filesystem
  obtain ⟨base, hbase, hsteady⟩ := MultiProcessRunner.steady_of_runLoop hadmissible hboot hrun
  obtain ⟨image, -, hresident⟩ := hsteady.settled.resident hprocess
  obtain ⟨hhalted, herror⟩ := not_or.mp (hsteady.going hprocess)
  have huser : UserRunning (imageConfinement image NoVectors) s.runtime.cpu.core :=
    { hresident.user with
      not_halted := Bool.eq_false_iff.mpr hhalted
      no_error := Bool.eq_false_iff.mpr herror }
  have hfits := hbase.carries.fits hresident.valid
  rw [← hresident.setup] at hfits
  have hdispatcher : s.runtime.cpu.setup.softwareInterruptHandler
      = some (protectedSyscallDispatcher (Board.hostRef.inside filesystem)) := by
    rw [hresident.setup]
    exact hbase.softwareInterruptHandler.trans hhandler
  have hcontroller : s.runtime.cpu.setup.interruptController = some Board.controllerRef := by
    rw [hresident.setup]
    exact hbase.interruptController
  exact syscall_returns hfits huser hdispatcher hcontroller hcall hend

/-- A file system as it is mounted first. -/
def freshFilesystem : ZeroFS := ZeroFS.new.toOption.getD ⟨SortedMap.empty⟩

/-- `INT 80` before a `NOP`, as an image. -/
def syscallImage : ProcessImage :=
  Kernel.imageOf {
    header := { code_size := 48 }
    code := (InstructionEncoder.encodeProgram
      [⟨.INT, .immediate 80, .none⟩, ⟨.NOP, .none, .none⟩] []).toOption.getD [] }
    (Str.ofString "syscall")

/-- Options with the dispatcher over the host's file system. -/
def syscallOptions : MultiProcessRunOptions ZeroFS where
  timer_vector := 240
  quantum := 100
  timer_payload := 0
  max_lifecycle_steps := 10
  normal_exit_code := 0
  fault_exit_code := 1
  mmio_bus := none
  software_interrupt_handler := some (protectedSyscallDispatcher
    (Board.hostRef.inside ⟨id, fun fs _ => fs, fun _ _ => rfl, fun _ => rfl, fun _ _ _ => rfl⟩))

/-- A process that reads the second hardware register. -/
def meterImage : ProcessImage :=
  Kernel.imageOf {
    header := { code_size := 96 }
    code := (InstructionEncoder.encodeProgram
      [⟨.MOV, .register .R1, .immediate 21⟩, ⟨.MOV, .register .R2, .immediate 8⟩,
        ⟨.INT, .immediate 80, .none⟩, ⟨.NOP, .none, .none⟩] []).toOption.getD [] }
    (Str.ofString "meter")

/-- A device in the hardware window, which reads as seven more than the offset. -/
def meterBus : MMIOBus ZeroFS where
  mappings := [{
    base := MemoryMap.kHardwareBase
    size := MemoryMap.kHardwareSize
    device :=
      { name := "meter"
        read := fun offset => pure (Word.ofSize (offset + 7))
        write := fun _ _ => pure () } }]

/-- The run up to the call. -/
def meterRun [LongDouble] : Except Str (MultiProcessRunner.RunState ZeroFS) :=
  MultiProcessRunner.boot freshFilesystem [meterImage] { syscallOptions with mmio_bus := some meterBus }
    >>= MultiProcessRunner.runLoop 2

/-- The call is next after two rounds, and it is answered. -/
theorem meterRun_facts :
    letI : LongDouble := LongDouble.x87
    (meterRun.toOption.map fun s => ((s.runtime.table.running_pid, s.runtime.cpu.core.state.pc,
        s.runtime.cpu.setup.userCodeEndExclusive, s.runtime.cpu.setup.hasBinaryProgram),
        (CPU.fetched s.runtime.cpu.setup s.runtime.cpu.core.state).toOption.map Prod.fst))
      = some ((1, 560, 608, true), some ⟨.INT, .Immediate, .None, 80, 0⟩)
    ∧ (meterRun.toOption.map fun s =>
        (s.runtime.cpu.step.core.softwareInterruptObservation.map fun observation =>
          (observation.result.disposition, observation.result.status, observation.result.result),
        s.runtime.cpu.step.core.state.registers .R2))
      = some (some (.ReturnToCaller, some ABI.kStatusOk, some 15), 15) :=
  ⟨by decide +kernel, by decide +kernel⟩

/-- The call is answered with the value of the register, and the process goes on behind it. -/
theorem syscall_return_contract_read :
    letI : LongDouble := LongDouble.x87
    ∃ s, meterRun = .ok s
      ∧ SyscallReturned s.runtime.cpu.core (some ABI.kStatusOk) s.runtime.cpu.step.core
      ∧ s.runtime.cpu.step.core.state.registers .R2 = 15 := by
  have hfacts := meterRun_facts
  generalize LongDouble.x87 = longDouble at hfacts ⊢
  obtain ⟨hnext, hanswered⟩ := hfacts
  -- The run is evaluated once, in `meterRun_facts`; here its results are matched to the hypotheses.
  cases hrun : meterRun with
  | error e =>
    rw [hrun] at hnext
    cases hnext
  | ok s =>
    rw [hrun] at hnext hanswered
    simp only [Except.toOption, Option.map_some, Option.some.injEq, Prod.mk.injEq] at hnext hanswered
    obtain ⟨⟨hpid, hpc, hend, hbinary⟩, hfetched⟩ := hnext
    obtain ⟨hobserved, hvalue⟩ := hanswered
    obtain ⟨first, hboot, hloop⟩ := bind_eq_ok.mp hrun
    refine ⟨s, rfl, ?_, hvalue⟩
    cases hf : CPU.fetched s.runtime.cpu.setup s.runtime.cpu.core.state with
    | error e =>
      rw [hf] at hfetched
      cases hfetched
    | ok p =>
      rw [hf] at hfetched
      obtain ⟨decoded, instruction⟩ := p
      obtain rfl : decoded = _ := Option.some.inj hfetched
      obtain ⟨result, hresult, hreturned⟩ := syscall_return_contract rfl hboot hloop
        (by rw [hpid]; decide) (atSyscall_of_fetched hbinary hf) (by rw [hpc, hend]; decide)
      rw [hresult] at hobserved
      simp only [Option.map_some, Option.some.injEq, Prod.mk.injEq] at hobserved
      obtain ⟨hdisposition, hstatus, -⟩ := hobserved
      rw [← hstatus]
      exact hreturned fun hends => by cases hdisposition.symm.trans hends

end ZeroCpu.Sys
