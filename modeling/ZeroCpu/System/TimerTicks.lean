import ZeroCpu.Core.StepConformance
import ZeroCpu.System.Residents

/-!
# The timer of a run

Reference: `src/core/TimerDevice.cpp`, `src/core/CPU.cpp`, `step`.

Only the runner has the timer and the interrupt controller of a run, so that their states are known:
`timerAfter` counts the ticks, and `controllerWith` holds nothing but requests of the timer. A step of
the CPU that leaves it running makes one tick, a step that stops it makes none.
-/

namespace ZeroCpu.Sys

open Library Kernel

variable {H : Type} {options : MultiProcessRunOptions H}

/-- The timer of a run after `n` ticks. -/
def timerAfter (options : MultiProcessRunOptions H) (n : ℕ) : TimerDevice where
  vector := options.timer_vector
  interval := options.quantum
  tickCount := BitVec.ofNat 64 n
  interruptCount := BitVec.ofNat 64 (n / options.quantum.toNat)
  payload := options.timer_payload
  enabled := true

/-- The request that the timer of a run makes. -/
def timerRequest (options : MultiProcessRunOptions H) : InterruptRequest :=
  ⟨options.timer_vector, options.timer_payload, TimerPreemptiveScheduler.kTimerSource⟩

/-- The controller of a run with `p` requests of the timer pending. -/
def controllerWith (options : MultiProcessRunOptions H) (p : ℕ) : InterruptController :=
  { InterruptController.clear with pending := List.replicate p (timerRequest options) }

/-- The requests that the `n`-th tick makes. -/
def requestsAt (options : MultiProcessRunOptions H) (n : ℕ) : ℕ :=
  if options.quantum.toNat ∣ n then 1 else 0

/-- The board has the timer and the controller of a run. -/
def OnBoard (options : MultiProcessRunOptions H) (n p : ℕ) (board : Board H) : Prop :=
  board.timer = timerAfter options n ∧ board.controller = controllerWith options p

/-! ## Ticks -/

/-- A new timer has not ticked. -/
theorem make_eq_timerAfter {timer : TimerDevice}
    (h : TimerDevice.make options.timer_vector options.quantum options.timer_payload = .ok timer) :
    timer = timerAfter options 0 ∧ options.quantum ≠ 0 := by
  obtain ⟨_, hquantum, h⟩ := bind_eq_ok.mp h
  obtain rfl := Except.ok.inj h
  refine ⟨?_, reject_eq_ok.mp hquantum⟩
  rw [timerAfter, Nat.zero_div]
  rfl

/-- One more request is pending. -/
theorem request_controllerWith (p : ℕ) :
    (controllerWith options p).request options.timer_vector options.timer_payload
        TimerPreemptiveScheduler.kTimerSource
      = controllerWith options (p + 1) := by
  rw [InterruptController.request, controllerWith, controllerWith, List.replicate_succ']
  rfl

/-- A tick counts, and makes a request at the end of every quantum. -/
theorem tick_timerAfter (hquantum : options.quantum ≠ 0) {n : ℕ} (hn : n + 1 < 2 ^ 64) (p : ℕ) :
    TimerDevice.tick (timerAfter options n, controllerWith options p)
      = (.ok (), timerAfter options (n + 1),
        controllerWith options (p + requestsAt options (n + 1))) := by
  have hrunning : ((timerAfter options n).tickCount != BitVec.allOnes 64) = true := by
    rw [bne_iff_ne]
    intro heq
    have hvalue := congrArg BitVec.toNat heq
    rw [timerAfter, BitVec.toNat_ofNat, BitVec.toNat_allOnes] at hvalue
    omega
  have hcount : (timerAfter options n).tickCount + 1 = BitVec.ofNat 64 (n + 1) :=
    BitVec.ofNat_add_ofNat n 1
  -- The counter does not wrap, so its remainder is that of the number of ticks.
  have hdue : BitVec.ofNat 64 (n + 1) % options.quantum = 0 ↔ options.quantum.toNat ∣ n + 1 := by
    rw [← BitVec.toNat_inj, BitVec.toNat_umod, BitVec.toNat_ofNat, Nat.mod_eq_of_lt hn,
      Nat.dvd_iff_mod_eq_zero]
    rfl
  have htick : TimerDevice.tick (timerAfter options n, controllerWith options p)
      = TimerDevice.maybeRequestInterrupt
        ({ timerAfter options n with tickCount := BitVec.ofNat 64 (n + 1) },
          controllerWith options p) := by
    rw [TimerDevice.tick, Exec.bind_of_ok (Exec.get_apply _)]
    simp only [Exec.bind_apply, Exec.require_apply, hrunning, if_true, Exec.modify_apply, hcount]
  rw [htick, TimerDevice.maybeRequestInterrupt, Exec.bind_of_ok (Exec.get_apply _)]
  dsimp only [timerAfter]
  rw [Bool.not_true, if_neg Bool.false_ne_true, if_neg hquantum, requestsAt, Nat.succ_div]
  by_cases hd : options.quantum.toNat ∣ n + 1
  · have hrequests : BitVec.ofNat 64 (n / options.quantum.toNat) + 1
        = BitVec.ofNat 64 (n / options.quantum.toNat + 1) := BitVec.ofNat_add_ofNat _ 1
    rw [if_neg (not_not.mpr (hdue.mpr hd)), if_pos hd, ← request_controllerWith, ← hrequests]
    rfl
  · rw [if_pos (fun heq => hd (hdue.mp heq)), if_neg hd]
    rfl

/-- Past the largest count a tick throws and counts nothing. -/
theorem tick_timerAfter_overflow (options : MultiProcessRunOptions H) {n : ℕ} (hn : n + 1 = 2 ^ 64)
    (controller : InterruptController) : ∃ e, TimerDevice.tick (timerAfter options n, controller)
      = (.error e, timerAfter options n, controller) := by
  have hfull : ((timerAfter options n).tickCount != BitVec.allOnes 64) = false := by
    rw [bne_eq_false_iff_eq, ← BitVec.toNat_inj, timerAfter, BitVec.toNat_ofNat,
      BitVec.toNat_allOnes]
    omega
  refine ⟨"TimerDevice tick counter overflow", ?_⟩
  rw [TimerDevice.tick, Exec.bind_of_ok (Exec.get_apply _)]
  simp only [Exec.bind_apply, Exec.require_apply, hfull]
  rfl

/-! ## Requests -/

/-- A request of the timer is a timer request. -/
theorem matching_timerRequest : InterruptController.matching options.timer_vector
    TimerPreemptiveScheduler.kTimerSource (timerRequest options) = true := by
  rw [InterruptController.matching, timerRequest, Bool.and_eq_true, beq_iff_eq, beq_iff_eq]
  exact ⟨rfl, rfl⟩

/-- A pending request of the timer is found. -/
theorem findDeliverableFrom_succ (p : ℕ) :
    (controllerWith options (p + 1)).findDeliverableFrom options.timer_vector
      TimerPreemptiveScheduler.kTimerSource = some (timerRequest options) := by
  have hopen : ¬ (!(controllerWith options (p + 1)).globalEnabled
      || (controllerWith options (p + 1)).masks options.timer_vector) = true := Bool.false_ne_true
  rw [InterruptController.findDeliverableFrom, if_neg hopen, controllerWith, List.replicate_succ,
    List.find?_cons_of_pos matching_timerRequest]

/-- The scheduler takes the requests one by one. -/
theorem acknowledgeFrom_controllerWith (p : ℕ) :
    (controllerWith options (p + 1)).acknowledgeFrom options.timer_vector
        TimerPreemptiveScheduler.kTimerSource
      = .ok (timerRequest options, controllerWith options p) := by
  rw [InterruptController.acknowledgeFrom, findDeliverableFrom_succ]
  dsimp only
  rw [controllerWith, List.replicate_succ, List.eraseP_cons_of_pos matching_timerRequest]
  rfl

/-- The controller has a request when one is pending. -/
theorem hasPendingFrom_controllerWith {p : ℕ} :
    (controllerWith options p).hasPendingFrom options.timer_vector
      TimerPreemptiveScheduler.kTimerSource = true ↔ 0 < p := by
  cases p with
  | zero => exact iff_of_false Bool.false_ne_true (Nat.lt_irrefl 0)
  | succ p =>
    refine ⟨fun _ => p.succ_pos, fun _ => ?_⟩
    rw [InterruptController.hasPendingFrom, findDeliverableFrom_succ]
    rfl

/-- Completing a process discards every request. -/
theorem discardRequests_controllerWith {p rounds : ℕ} (h : p ≤ rounds) :
    MultiProcessRunner.discardRequests options.timer_vector rounds (controllerWith options p)
      = controllerWith options 0 := by
  induction rounds generalizing p with
  | zero =>
    obtain rfl := Nat.le_zero.mp h
    rfl
  | succ rounds ih =>
    cases p with
    | zero => rfl
    | succ p =>
      rw [MultiProcessRunner.discardRequests, acknowledgeFrom_controllerWith]
      exact ih (Nat.le_of_succ_le_succ h)

/-! ## Steps of the CPU -/

section Steps

variable {base : Setup (Board H)} {image : ProcessImage} {cpu : CPU (Board H)} {n p : ℕ}

/-- The board stays as it is without its clock. -/
theorem onBoard_carries (hbase : Connected options base) (n p : ℕ) :
    Carries options (OnBoard options n p) { base with clockedDevices := [] } where
  mmioBus := hbase.mmioBus
  interruptController := hbase.interruptController
  softwareInterruptHandler := hbase.softwareInterruptHandler
  host _ _ h := h
  tick _ hdevice := absurd hdevice List.not_mem_nil
  vectors board h vector := by
    rw [h.2]
    rfl

/-- A step that leaves the CPU running makes one tick. A step that stops it makes none, unless it
strands a call. While the count of ticks has room, the clock changes nothing else. -/
theorem step_onBoard [LongDouble] (hbase : Connected options base)
    (hadmissible : Admissible options.software_interrupt_handler) (hquantum : options.quantum ≠ 0)
    (hn : n < 2 ^ 64) (h : Resident NoVectors base image cpu) (hrun : ¬ cpu.Stopped)
    (hboard : OnBoard options n p cpu.core.world) :
    (¬ cpu.step.Stopped → n + 1 < 2 ^ 64
        ∧ OnBoard options (n + 1) (p + requestsAt options (n + 1)) cpu.step.core.world)
      ∧ (cpu.step.Stopped → OnBoard options n p cpu.step.core.world
        ∨ cpu.step.core.usingKernelInterruptStack = true)
      ∧ (n + 1 < 2 ^ 64 → cpu.step.core.state = cpu.withoutClock.step.core.state) := by
  have hpending : cpu.NoPending := by
    intro r hr
    rw [h.setup] at hr
    obtain rfl := Option.some.inj (hbase.interruptController.symm.trans hr)
    exact InterruptController.hasPending_of_vectorTable h.user.world
  obtain ⟨hstops, hticks⟩ := CPU.step_core_of_withoutClock hrun hpending
  -- The instruction leaves the timer and the controller alone, on the CPU without its clock.
  have hexecuted : Resident (OnBoard options n p) { base with clockedDevices := [] } image
      cpu.withoutClock := by
    refine ⟨h.valid, ?_, { h.user with world := hboard }⟩
    show { cpu.setup with clockedDevices := [] } = _
    rw [h.setup]
    rfl
  by_cases hstopped : cpu.withoutClock.step.Stopped
  · have hcore := hstops hstopped
    rw [CPU.Stopped, hcore]
    refine ⟨fun hgoes => absurd hstopped hgoes, fun _ => ?_, fun _ => rfl⟩
    rcases (onBoard_carries hbase n p).step hadmissible hexecuted with hstep | hstranded
    · exact .inl hstep.user.world
    · exact .inr hstranded.2.2
  · have hstep := ((onBoard_carries hbase n p).step hadmissible hexecuted).resolve_right
      fun hstranded => hstopped (.inr hstranded.2.1)
    have hcore := hticks hstopped
    obtain ⟨htimer, hcontroller⟩ := hstep.user.world
    rw [CPU.Stopped] at hstopped
    generalize cpu.withoutClock.step.core = executed at hcore htimer hcontroller hstopped ⊢
    have hclock : cpu.setup.clockedDevices = [TimerDevice.clocked Board.timerRef] := by
      rw [h.setup]
      exact hbase.clockedDevices
    rw [CPU.tickClockedDevices, hclock, CPU.tickDevices, Exec.bind_apply] at hcore
    have htick : Exec.zoom Core.worldRef (TimerDevice.clocked Board.timerRef).tick executed
        = ((TimerDevice.tick (executed.world.timer, executed.world.controller)).1,
          { executed with world := { executed.world with
            timer := (TimerDevice.tick (executed.world.timer, executed.world.controller)).2.1
            controller := (TimerDevice.tick (executed.world.timer, executed.world.controller)).2.2 } }) :=
      rfl
    rw [htick, htimer, hcontroller] at hcore
    by_cases hlast : n + 1 = 2 ^ 64
    · obtain ⟨e, hthrows⟩ := tick_timerAfter_overflow options hlast (controllerWith options p)
      rw [hthrows] at hcore
      rw [CPU.Stopped, hcore]
      exact ⟨fun hgoes => absurd (.inr rfl) hgoes, fun _ => .inl ⟨rfl, rfl⟩,
        fun hroom => absurd hlast hroom.ne⟩
    · have hn' : n + 1 < 2 ^ 64 := by omega
      rw [tick_timerAfter hquantum hn'] at hcore
      rw [CPU.Stopped, hcore]
      exact ⟨fun _ => ⟨hn', rfl, rfl⟩, fun hstop => absurd hstop hstopped, fun _ => rfl⟩

end Steps

end ZeroCpu.Sys
